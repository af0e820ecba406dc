import Mathlib.Data.Nat.Basic
import Mathlib.Tactic.Ring

/-!
# Byte strings of fixed length and big-endian integers

`Block n` is a byte string that carries the proof of its length, the model
of a fixed-size byte array. `be k v` writes `v` in `k` big-endian bytes and
`ofBe` reads a byte string back; `ofBe_be` is the round trip for values
that fit, `be_ofBe` the one for byte strings.
-/
namespace CommPlatform.Core

abbrev Bytes := List UInt8

/-- A byte string of length `n`. -/
@[ext] structure Block (n : Nat) where
  bytes : Bytes
  length_bytes : bytes.length = n
deriving DecidableEq

namespace Block

attribute [simp] length_bytes

variable {n : Nat}

def fill (n : Nat) (b : UInt8) : Block n := ⟨List.replicate n b, List.length_replicate⟩

def ofTake (n : Nat) (b : Bytes) (h : n ≤ b.length) : Block n :=
  ⟨b.take n, by simpa using h⟩

def slice {n : Nat} (b : Block n) (i len : Nat) (h : i + len ≤ n := by decide) : Block len :=
  ⟨(b.bytes.drop i).take len, by
    rw [List.length_take, List.length_drop, b.length_bytes]; omega⟩

@[simp] theorem bytes_slice {n : Nat} (b : Block n) (i len : Nat) (h : i + len ≤ n) :
    (b.slice i len h).bytes = (b.bytes.drop i).take len := rfl

theorem bytes_inj {a b : Block n} : a.bytes = b.bytes ↔ a = b := Block.ext_iff.symm

@[simp] theorem bytes_fill (n : Nat) (b : UInt8) : (fill n b).bytes = List.replicate n b := rfl

def append {m : Nat} (a : Block n) (b : Block m) : Block (n + m) :=
  ⟨a.bytes ++ b.bytes, by simp⟩

variable {m : Nat} (a : Block n) (b : Block m)

@[simp] theorem bytes_append : (a.append b).bytes = a.bytes ++ b.bytes := rfl

theorem slice_append_left (h : 0 + n ≤ n + m) : (a.append b).slice 0 n h = a := by
  ext1; simp

theorem slice_append_right (h : n + m ≤ n + m) : (a.append b).slice n m h = b := by
  ext1; simp [List.take_of_length_le]

theorem slice_fill {n i len : Nat} (b : UInt8) (h : i + len ≤ n) :
    (fill n b).slice i len h = fill len b := by
  ext1
  rw [bytes_slice, bytes_fill, List.drop_replicate, List.take_replicate, bytes_fill,
    Nat.min_eq_left (by omega)]

end Block

abbrev Uuid := Block 16

def ascii (s : String) : Bytes := s.toList.map fun c => UInt8.ofNat c.toNat

/-! ## Big-endian integers -/

/-- `v` in `k` bytes, most significant first. -/
def be : Nat → Nat → Bytes
  | 0, _ => []
  | k + 1, v => UInt8.ofNat (v / 256 ^ k) :: be k v

/-- The number a byte string spells, most significant byte first. -/
def ofBe (b : Bytes) : Nat := b.foldl (fun acc x => acc * 256 + x.toNat) 0

@[simp] theorem length_be (k v : Nat) : (be k v).length = k := by
  induction k with
  | zero => rfl
  | succ k ih => simp [be, ih]

theorem foldl_be (k v acc : Nat) :
    (be k v).foldl (fun acc x => acc * 256 + x.toNat) acc = acc * 256 ^ k + v % 256 ^ k := by
  induction k generalizing acc with
  | zero => simp [be, Nat.mod_one]
  | succ k ih =>
    have hd : (UInt8.ofNat (v / 256 ^ k)).toNat = v / 256 ^ k % 256 := by simp
    have hm : v % 256 ^ (k + 1) = v % 256 ^ k + 256 ^ k * (v / 256 ^ k % 256) := by
      rw [pow_succ, Nat.mod_mul]
    simp only [be, List.foldl_cons, ih, hd]
    rw [hm]; ring

theorem ofBe_be {k v : Nat} (h : v < 256 ^ k) : ofBe (be k v) = v := by
  unfold ofBe
  rw [foldl_be, Nat.mod_eq_of_lt h]; simp

variable (b : Bytes)

theorem foldl_ofBe (acc : Nat) :
    b.foldl (fun acc x => acc * 256 + x.toNat) acc = acc * 256 ^ b.length + ofBe b := by
  induction b generalizing acc with
  | nil => simp [ofBe]
  | cons x b ih =>
    rw [ofBe, List.foldl_cons, List.foldl_cons, ih, ih (0 * 256 + x.toNat), List.length_cons,
      pow_succ]
    ring

theorem ofBe_cons (x : UInt8) (b : Bytes) : ofBe (x :: b) = x.toNat * 256 ^ b.length + ofBe b := by
  rw [ofBe, List.foldl_cons, foldl_ofBe, Nat.zero_add]

theorem ofBe_lt : ofBe b < 256 ^ b.length := by
  induction b with
  | nil => simp [ofBe]
  | cons x b ih =>
    have hx : x.toNat * 256 ^ b.length ≤ 255 * 256 ^ b.length :=
      Nat.mul_le_mul_right _ (Nat.le_of_lt_succ x.toNat_lt)
    rw [ofBe_cons, List.length_cons]
    omega

/-- The digits above the ones written do not matter. -/
theorem be_mul_add (k c v : Nat) : be k (c * 256 ^ k + v) = be k v := by
  induction k generalizing c with
  | zero => rfl
  | succ k ih =>
    have hshift : c * 256 ^ (k + 1) + v = c * 256 * 256 ^ k + v := by rw [pow_succ]; ring
    have hdigit : (c * 256 * 256 ^ k + v) / 256 ^ k = c * 256 + v / 256 ^ k := by
      rw [Nat.mul_comm, Nat.mul_add_div (Nat.pos_of_neZero _)]
    have hbyte : UInt8.ofNat (c * 256 + v / 256 ^ k) = UInt8.ofNat (v / 256 ^ k) := by
      rw [← UInt8.toNat_inj, UInt8.toNat_ofNat', UInt8.toNat_ofNat']
      omega
    rw [be, be, hshift, ih, hdigit, hbyte]

theorem be_add (j k v : Nat) : be (j + k) v = be j (v / 256 ^ k) ++ be k v := by
  induction j with
  | zero => rw [Nat.zero_add]; rfl
  | succ j ih =>
    rw [Nat.add_right_comm, be, be, ih, List.cons_append, Nat.div_div_eq_div_mul, ← pow_add,
      Nat.add_comm k j]

theorem be_ofBe : be b.length (ofBe b) = b := by
  induction b with
  | nil => rfl
  | cons x b ih =>
    have hdigit : (x.toNat * 256 ^ b.length + ofBe b) / 256 ^ b.length = x.toNat := by
      rw [Nat.mul_comm, Nat.mul_add_div (Nat.pos_of_neZero _), Nat.div_eq_of_lt (ofBe_lt b),
        Nat.add_zero]
    rw [ofBe_cons, List.length_cons, be, hdigit, be_mul_add, ih, UInt8.ofNat_toNat]

end CommPlatform.Core
