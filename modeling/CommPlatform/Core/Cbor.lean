import CommPlatform.Core.Codec
import CommPlatform.Core.Utf8

/-!
# Definite items of CBOR

The subset of RFC 8949 that deterministic encodings use: unsigned integers,
byte and text strings, arrays, maps, booleans and null, all of definite
length. The writers emit the shortest head; the readers, like those of the
usual libraries, accept every width of the argument. `e` is the error of
input that ends early, has another type or an argument width that is
reserved.

* `argument_exact`: under the width the shortest form uses, an argument is
  read back from exactly the bytes the writer puts after the first byte.
* `item_run`: an item of which the first byte is the one of the shortest
  form is the item the writer writes.
-/
namespace CommPlatform.Core.Cbor

variable {ε : Type}

/-! ## Writers -/

/-- The low five bits of the first byte of the shortest head. -/
def info (n : Nat) : Nat :=
  if n < 24 then n else if n < 2 ^ 8 then 24 else if n < 2 ^ 16 then 25
  else if n < 2 ^ 32 then 26 else 27

/-- The bytes of the argument after the first byte. -/
def follow (n : Nat) : Bytes :=
  if n < 24 then [] else if n < 2 ^ 8 then be 1 n else if n < 2 ^ 16 then be 2 n
  else if n < 2 ^ 32 then be 4 n else be 8 n

def firstByte (major n : Nat) : UInt8 := UInt8.ofNat (major * 32 + info n)

def head (major n : Nat) : Bytes := firstByte major n :: follow n

def uint (n : Nat) : Bytes := head 0 n

def bytes (b : Bytes) : Bytes := head 2 b.length ++ b

def str (t : Text) : Bytes := head 3 t.bytes.length ++ t.bytes

def array (n : Nat) : Bytes := head 4 n

def map (n : Nat) : Bytes := head 5 n

def bool (b : Bool) : Bytes := [if b then 0xf5 else 0xf4]

def null : Bytes := [0xf6]

/-! ## Readers -/

namespace Decode

def byte (e : ε) : StateT Bytes (Except ε) UInt8 := fun
  | b :: r => .ok (b, r)
  | [] => .error e

def word (e : ε) (k : Nat) : StateT Bytes (Except ε) Nat := do
  let b ← takeFront e k
  return ofBe b

/-- The argument that goes with the low five bits of a first byte. -/
def argument (e : ε) (low : Nat) : StateT Bytes (Except ε) Nat :=
  if low < 24 then return low
  else if low = 24 then word e 1
  else if low = 25 then word e 2
  else if low = 26 then word e 4
  else if low = 27 then word e 8
  else throw e

def item (e : ε) (major : Nat) : StateT Bytes (Except ε) Nat := do
  let first ← byte e
  if first.toNat / 32 = major then argument e (first.toNat % 32) else throw e

def uint (e : ε) : StateT Bytes (Except ε) Nat := item e 0

def bytes (e : ε) : StateT Bytes (Except ε) Bytes := do
  let n ← item e 2
  takeFront e n

def str (e : ε) : StateT Bytes (Except ε) Text := do
  let n ← item e 3
  let b ← takeFront e n
  match Text.ofBytes? b with
  | some t => return t
  | none => throw e

def array (e : ε) : StateT Bytes (Except ε) Nat := item e 4

def map (e : ε) : StateT Bytes (Except ε) Nat := item e 5

def bool (e : ε) : StateT Bytes (Except ε) Bool := do
  let b ← byte e
  if b = 0xf4 then return false else if b = 0xf5 then return true else throw e

def null (e : ε) : StateT Bytes (Except ε) Unit := do
  let b ← byte e
  if b = 0xf6 then return () else throw e

end Decode

/-! ## The shortest head -/

theorem info_lt (n : Nat) : info n < 28 := by
  unfold info
  split
  · omega
  · split
    · omega
    · split
      · omega
      · split <;> omega

variable {major : Nat}

theorem info_cases (n : Nat) : (n < 24 ∧ info n = n ∧ follow n = []) ∨
    (24 ≤ n ∧ n < 2 ^ 8 ∧ info n = 24 ∧ follow n = be 1 n) ∨
    (2 ^ 8 ≤ n ∧ n < 2 ^ 16 ∧ info n = 25 ∧ follow n = be 2 n) ∨
    (2 ^ 16 ≤ n ∧ n < 2 ^ 32 ∧ info n = 26 ∧ follow n = be 4 n) ∨
    (2 ^ 32 ≤ n ∧ info n = 27 ∧ follow n = be 8 n) := by
  unfold info follow
  by_cases h₀ : n < 24
  · exact .inl ⟨h₀, if_pos h₀, if_pos h₀⟩
  by_cases h₁ : n < 2 ^ 8
  · exact .inr (.inl ⟨by omega, h₁, by rw [if_neg h₀, if_pos h₁], by rw [if_neg h₀, if_pos h₁]⟩)
  by_cases h₂ : n < 2 ^ 16
  · exact .inr (.inr (.inl ⟨by omega, h₂, by rw [if_neg h₀, if_neg h₁, if_pos h₂],
      by rw [if_neg h₀, if_neg h₁, if_pos h₂]⟩))
  by_cases h₃ : n < 2 ^ 32
  · exact .inr (.inr (.inr (.inl ⟨by omega, h₃, by rw [if_neg h₀, if_neg h₁, if_neg h₂, if_pos h₃],
      by rw [if_neg h₀, if_neg h₁, if_neg h₂, if_pos h₃]⟩)))
  · exact .inr (.inr (.inr (.inr ⟨by omega, by rw [if_neg h₀, if_neg h₁, if_neg h₂, if_neg h₃],
      by rw [if_neg h₀, if_neg h₁, if_neg h₂, if_neg h₃]⟩)))

theorem toNat_firstByte (h : major < 8) (n : Nat) :
    (firstByte major n).toNat = major * 32 + info n := by
  have hlt := info_lt n
  rw [firstByte, UInt8.toNat_ofNat']
  omega

theorem firstByte_div (h : major < 8) (n : Nat) : (firstByte major n).toNat / 32 = major := by
  have hlt := info_lt n
  rw [toNat_firstByte h]
  omega

theorem firstByte_mod (h : major < 8) (n : Nat) : (firstByte major n).toNat % 32 = info n := by
  have hlt := info_lt n
  rw [toNat_firstByte h]
  omega

section

variable (e : ε)

theorem byte_exact : Exact (Decode.byte e) (fun _ => True) (fun b => [b]) := by
  rintro (_ | ⟨b, input⟩) c rest
  · refine ⟨fun h => ?_, fun h => ?_⟩
    · cases h
    · cases h.2
  · change Except.ok (b, input) = Except.ok (c, rest) ↔ True ∧ b :: input = [c] ++ rest
    rw [Except.ok.injEq, Prod.mk.injEq, List.singleton_append, List.cons.injEq, true_and]

theorem word_exact (k : Nat) : Exact (Decode.word e k) (fun n => n < 256 ^ k) (be k) := by
  intro input n rest
  rw [Decode.word, Exact.bind_run]
  constructor
  · rintro ⟨b, mid, hread, hret⟩
    obtain ⟨rfl, rfl⟩ := (takeFront_exact e k _ _ _).mp hread
    cases hret
    exact ⟨ofBe_lt b, by rw [be_ofBe]⟩
  · rintro ⟨hn, rfl⟩
    refine ⟨be k n, rest, (takeFront_exact e k _ _ _).mpr ⟨length_be k n, rfl⟩, ?_⟩
    rw [ofBe_be hn]
    rfl

variable {n : Nat} {input rest : Bytes}

theorem argument_exact (hn : n < 2 ^ 64) :
    (Decode.argument e (info n)).run input = .ok (n, rest) ↔ input = follow n ++ rest := by
  have hword : ∀ k, n < 256 ^ k →
      ((Decode.word e k).run input = .ok (n, rest) ↔ input = be k n ++ rest) :=
    fun k hk => (word_exact e k _ _ _).trans (and_iff_right hk)
  unfold info follow Decode.argument
  by_cases h₀ : n < 24
  · simp only [if_pos h₀]
    change Except.ok (n, input) = Except.ok (n, rest) ↔ input = [] ++ rest
    rw [Except.ok.injEq, Prod.mk.injEq, List.nil_append, and_iff_right rfl]
  · simp only [if_neg h₀]
    by_cases h₁ : n < 2 ^ 8
    · simp only [if_pos h₁]
      exact hword 1 h₁
    · simp only [if_neg h₁]
      by_cases h₂ : n < 2 ^ 16
      · simp only [if_pos h₂]
        exact hword 2 h₂
      · simp only [if_neg h₂]
        by_cases h₃ : n < 2 ^ 32
        · simp only [if_pos h₃]
          exact hword 4 h₃
        · simp only [if_neg h₃]
          exact hword 8 hn

theorem argument_lt {low : Nat}
    (h : (Decode.argument e low).run input = .ok (n, rest)) : n < 2 ^ 64 := by
  have hword : ∀ k, k ≤ 8 → (Decode.word e k).run input = .ok (n, rest) → n < 2 ^ 64 := by
    intro k hk hread
    have hlt := ((word_exact e k _ _ _).mp hread).1
    calc n < 256 ^ k := hlt
      _ ≤ 256 ^ 8 := Nat.pow_le_pow_right (by decide) hk
  unfold Decode.argument at h
  split at h
  · cases h
    omega
  · split at h
    · exact hword 1 (by decide) h
    · split at h
      · exact hword 2 (by decide) h
      · split at h
        · exact hword 4 (by decide) h
        · split at h
          · exact hword 8 (by decide) h
          · cases h

theorem item_run (hmajor : major < 8) {b : UInt8} {tail rest : Bytes} :
    (Decode.item e major).run (b :: tail) = .ok (n, rest) ∧ b = firstByte major n ↔
      n < 2 ^ 64 ∧ b :: tail = head major n ++ rest := by
  have hitem : (Decode.item e major).run (b :: tail) =
      (if b.toNat / 32 = major then Decode.argument e (b.toNat % 32) else throw e).run tail := rfl
  rw [hitem]
  constructor
  · rintro ⟨hread, rfl⟩
    rw [if_pos (firstByte_div hmajor n), firstByte_mod hmajor] at hread
    have hn := argument_lt e hread
    rw [(argument_exact e hn).mp hread]
    exact ⟨hn, rfl⟩
  · rintro ⟨hn, heq⟩
    obtain ⟨rfl, rfl⟩ := List.cons.inj heq
    rw [if_pos (firstByte_div hmajor n), firstByte_mod hmajor]
    exact ⟨(argument_exact e hn).mpr rfl, rfl⟩

end

end CommPlatform.Core.Cbor
