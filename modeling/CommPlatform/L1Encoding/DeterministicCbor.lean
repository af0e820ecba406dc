import CommPlatform.Core.Cbor
import Mathlib.Data.List.Flatten
import Mathlib.Data.List.Sort

/-!
# Deterministic CBOR of the client

`deterministic_cbor.dart`: the trees that the bodies of call and presence
signals are written in. A text is a well-formed string, given by its UTF-8
bytes; `utf8.decode` drops one byte-order mark at its beginning. A map holds its
entries in the order of their insertion, which is not part of its value
(`inOrder`).

Bare line numbers are those of `deterministic_cbor.dart`.
-/
namespace CommPlatform.DeterministicCbor

open CommPlatform.Core
open List (append_assoc flatMap_cons forall_mem_map length_append length_map map_cons)

/-- mirrors :11-57 -/
inductive CborValue
  | unsigned (value : Nat)
  | bytes (value : Bytes)
  | text (value : Text)
  | bool (value : Bool)
  | array (items : List CborValue)
  | map (entries : List (Nat × CborValue))

structure CborFormatException where

/-! ## Writing -/

/-- mirrors :118-145 -/
def writeHead (major argument : Nat) : Bytes :=
  let type := major <<< 5
  if argument < 24 then [UInt8.ofNat (type ||| argument)]
  else if argument ≤ 0xff then UInt8.ofNat (type ||| 24) :: be 1 argument
  else if argument ≤ 0xffff then UInt8.ofNat (type ||| 25) :: be 2 argument
  else if argument ≤ 0xffffffff then UInt8.ofNat (type ||| 26) :: be 4 argument
  else UInt8.ofNat (type ||| 27) :: be 8 argument

def byKey {α : Type} (entries : List (Nat × α)) : List (Nat × α) :=
  entries.insertionSort fun a b => a.1 ≤ b.1

mutual

/-- mirrors :70-74, 90-116 -/
def encode : CborValue → Bytes
  | .unsigned value => writeHead 0 value
  | .bytes value => writeHead 2 value.length ++ value
  | .text value => writeHead 3 value.bytes.length ++ value.bytes
  | .array items => writeHead 4 items.length ++ encodeItems items
  | .map entries => writeHead 5 entries.length ++
      (byKey (encodeEntries entries)).flatMap fun e => writeHead 0 e.1 ++ e.2
  | .bool value => [if value then 0xf5 else 0xf4]

def encodeItems : List CborValue → Bytes
  | [] => []
  | item :: items => encode item ++ encodeItems items

def encodeEntries : List (Nat × CborValue) → List (Nat × Bytes)
  | [] => []
  | (key, value) :: entries => (key, encode value) :: encodeEntries entries

end

/-! ## Reading -/

abbrev CborReader := StateT Bytes (Except CborFormatException)

/-- `utf8.decode` of `dart:convert`. -/
def utf8Decode (b : Bytes) : Option Text := (Text.ofBytes? b).map Text.dropMark

namespace CborReader

def byte : CborReader UInt8 := Cbor.Decode.byte ⟨⟩

/-- mirrors :257-263 -/
def unsigned (width : Nat) : CborReader Nat := Cbor.Decode.word ⟨⟩ width

/-- mirrors :272-281 -/
def take (length : Nat) : CborReader Bytes := takeFront ⟨⟩ length

def remaining : CborReader Nat := do
  return (← get).length

/-- mirrors :222-255 -/
def argument (information : Nat) : CborReader Nat := do
  if information < 24 then return information
  else if information = 24 then
    let value ← unsigned 1
    if value < 24 then throw ⟨⟩ else return value
  else if information = 25 then
    let value ← unsigned 2
    if value ≤ 0xff then throw ⟨⟩ else return value
  else if information = 26 then
    let value ← unsigned 4
    if value ≤ 0xffff then throw ⟨⟩ else return value
  else if information = 27 then
    let high ← unsigned 4
    let low ← unsigned 4
    if high = 0 ∨ high > 0x7fffffff then throw ⟨⟩ else return high <<< 32 ||| low
  else throw ⟨⟩

/-- mirrors :211-217 -/
def key : CborReader Nat := do
  let initial ← byte
  if initial.toNat >>> 5 ≠ 0 then throw ⟨⟩ else argument (initial.toNat &&& 0x1f)

/-- The loop over the entries of a map, after the key `previous`.
mirrors :189-198 -/
def entries (read : CborReader CborValue) : Option Nat → Nat → CborReader (List (Nat × CborValue))
  | _, 0 => return []
  | previous, count + 1 => do
    let k ← key
    if previous.any (k ≤ ·) then throw ⟨⟩
    else
      let value ← read
      let rest ← entries read (some k) count
      return (k, value) :: rest

/-- What follows the first byte of an item; `nested` reads the items inside it, unless the nesting is
exhausted.
mirrors :163-208 -/
def contents (nested : Option (CborReader CborValue)) (major information : Nat) :
    CborReader CborValue :=
  match major with
  | 0 => do return .unsigned (← argument information)
  | 2 => do return .bytes (← take (← argument information))
  | 3 => do
    let encoded ← take (← argument information)
    match utf8Decode encoded with
    | some text => return .text text
    | none => throw ⟨⟩
  | 4 => do
    let count ← argument information
    match nested with
    | none => throw ⟨⟩
    | some read =>
      if count > (← remaining) then throw ⟨⟩ else return .array (← many read count)
  | 5 => do
    let count ← argument information
    match nested with
    | none => throw ⟨⟩
    | some read =>
      if count > (← remaining) / 2 then throw ⟨⟩ else return .map (← entries read none count)
  | 7 =>
    if information = 20 then return .bool false
    else if information = 21 then return .bool true
    else throw ⟨⟩
  | _ => throw ⟨⟩

/-- mirrors :159-163 -/
def item (nested : Option (CborReader CborValue)) : CborReader CborValue := do
  let initial ← byte
  contents nested (initial.toNat >>> 5) (initial.toNat &&& 0x1f)

/-- Reads an item in which so many arrays and maps may enclose one another. -/
def read : Nat → CborReader CborValue
  | 0 => item none
  | nesting + 1 => item (some (read nesting))

end CborReader

/-- mirrors :76-88 -/
def decode (maximumNesting : Nat) (bytes : Bytes) : Except CborFormatException CborValue := do
  let (value, rest) ← (CborReader.read maximumNesting).run bytes
  if rest.isEmpty then return value else throw ⟨⟩

variable {input rest : Bytes}

/-! ## Heads -/

section Head

theorem type_or {major k : Nat} (hk : k < 32) : major <<< 5 ||| k = major * 32 + k := by
  rw [Nat.shiftLeft_eq, Nat.mul_comm, ← Nat.two_pow_add_eq_or_of_lt (i := 5) hk]

theorem shiftRight_five (n : Nat) : n >>> 5 = n / 32 := Nat.shiftRight_eq_div_pow n 5

theorem and_low (n : Nat) : n &&& 0x1f = n % 32 := Nat.and_two_pow_sub_one_eq_mod n 5

theorem writeHead_eq (major n : Nat) : writeHead major n = Cbor.head major n := by
  unfold writeHead Cbor.head Cbor.firstByte Cbor.info Cbor.follow
  by_cases h₀ : n < 24
  · rw [if_pos h₀, if_pos h₀, if_pos h₀, type_or (by omega)]
  rw [if_neg h₀, if_neg h₀, if_neg h₀]
  by_cases h₁ : n < 2 ^ 8
  · rw [if_pos (by omega), if_pos h₁, if_pos h₁, type_or (by decide)]
  rw [if_neg (by omega), if_neg h₁, if_neg h₁]
  by_cases h₂ : n < 2 ^ 16
  · rw [if_pos (by omega), if_pos h₂, if_pos h₂, type_or (by decide)]
  rw [if_neg (by omega), if_neg h₂, if_neg h₂]
  by_cases h₃ : n < 2 ^ 32
  · rw [if_pos (by omega), if_pos h₃, if_pos h₃, type_or (by decide)]
  · rw [if_neg (by omega), if_neg h₃, if_neg h₃, type_or (by decide)]

theorem firstByte_of {b : UInt8} {major n : Nat} (hmajor : b.toNat >>> 5 = major)
    (hinfo : b.toNat &&& 0x1f = Cbor.info n) : b = Cbor.firstByte major n := by
  rw [and_low] at hinfo
  have hlt : major < 8 := by
    have := b.toNat_lt
    omega
  rw [← UInt8.toNat_inj, Cbor.toNat_firstByte hlt]
  omega

variable {major : Nat}

theorem firstByte_major (h : major < 8) (n : Nat) :
    (Cbor.firstByte major n).toNat >>> 5 = major := by
  rw [shiftRight_five, Cbor.firstByte_div h]

theorem firstByte_info (h : major < 8) (n : Nat) :
    (Cbor.firstByte major n).toNat &&& 0x1f = Cbor.info n := by
  rw [and_low, Cbor.firstByte_mod h]

theorem unsigned_unless {width : Nat} {refused : Nat → Prop} [DecidablePred refused] {n : Nat} :
    (do
      let value ← CborReader.unsigned width
      if refused value then throw ⟨⟩ else return value : CborReader Nat).run input = .ok (n, rest) ↔
      ¬ refused n ∧ n < 256 ^ width ∧ input = be width n ++ rest := by
  rw [Exact.bind_run]
  constructor
  · rintro ⟨value, mid, hread, hret⟩
    obtain ⟨hlt, rfl⟩ := (Cbor.word_exact _ width _ _ _).mp hread
    split at hret
    · cases hret
    · next haccepted =>
      cases hret
      exact ⟨haccepted, hlt, rfl⟩
  · rintro ⟨haccepted, hlt, rfl⟩
    refine ⟨n, rest, (Cbor.word_exact _ width _ _ _).mpr ⟨hlt, rfl⟩, ?_⟩
    rw [if_neg haccepted]
    rfl

theorem unsigned_wide {n : Nat} :
    (do
      let high ← CborReader.unsigned 4
      let low ← CborReader.unsigned 4
      if high = 0 ∨ high > 0x7fffffff then throw ⟨⟩ else return high <<< 32 ||| low :
        CborReader Nat).run input = .ok (n, rest) ↔
      2 ^ 32 ≤ n ∧ n < 2 ^ 63 ∧ input = be 8 n ++ rest := by
  have hsplit : ∀ n, be 8 n = be 4 (n / 2 ^ 32) ++ be 4 n := be_add 4 4
  rw [Exact.bind_run]
  constructor
  · rintro ⟨high, mid, hread, hrest⟩
    obtain ⟨low, mid', hread', hret⟩ := Exact.bind_run.mp hrest
    obtain ⟨hhigh, rfl⟩ := (Cbor.word_exact _ 4 _ _ _).mp hread
    obtain ⟨hlow, rfl⟩ := (Cbor.word_exact _ 4 _ _ _).mp hread'
    split at hret
    · cases hret
    · next hbounds =>
      cases hret
      have hvalue : high <<< 32 ||| low = high * 2 ^ 32 + low := by
        rw [Nat.shiftLeft_eq, Nat.mul_comm, ← Nat.two_pow_add_eq_or_of_lt (i := 32) hlow]
      rw [hvalue]
      refine ⟨by omega, by omega, ?_⟩
      have hdigits : be 4 (high * 2 ^ 32 + low) = be 4 low := be_mul_add 4 high low
      rw [hsplit, hdigits, show (high * 2 ^ 32 + low) / 2 ^ 32 = high by omega, append_assoc]
  · rintro ⟨hge, hlt, rfl⟩
    refine ⟨n / 2 ^ 32, be 4 n ++ rest, (Cbor.word_exact _ 4 _ _ _).mpr ⟨by omega, ?_⟩,
      Exact.bind_run.mpr ⟨n % 2 ^ 32, rest, (Cbor.word_exact _ 4 _ _ _).mpr ⟨by omega, ?_⟩, ?_⟩⟩
    · rw [hsplit, append_assoc]
    · have hlow : be 4 n = be 4 (n % 2 ^ 32) := by
        conv_lhs => rw [← Nat.div_add_mod' n (2 ^ 32)]
        exact be_mul_add 4 _ _
      rw [hlow]
    · rw [if_neg (by omega), Nat.shiftLeft_eq, Nat.mul_comm,
        ← Nat.two_pow_add_eq_or_of_lt (i := 32) (by omega), Nat.div_add_mod]
      rfl

theorem argument_iff {low n : Nat} : (CborReader.argument low).run input = .ok (n, rest) ↔
      n < 2 ^ 63 ∧ low = Cbor.info n ∧ input = Cbor.follow n ++ rest := by
  unfold CborReader.argument
  have hcases := Cbor.info_cases n
  constructor
  · intro h
    split at h
    · cases h
      obtain ⟨-, hinfo, hfollow⟩ | h' | h' | h' | h' := hcases
      · exact ⟨by omega, hinfo.symm, by rw [hfollow, List.nil_append]⟩
      all_goals omega
    split at h
    · obtain ⟨hbound, hlt, rfl⟩ := unsigned_unless.mp h
      obtain h' | ⟨-, -, hinfo, hfollow⟩ | h' | h' | h' := hcases
      case inr.inl => exact ⟨by omega, by omega, by rw [hfollow]⟩
      all_goals omega
    split at h
    · obtain ⟨hbound, hlt, rfl⟩ := unsigned_unless.mp h
      obtain h' | h' | ⟨-, -, hinfo, hfollow⟩ | h' | h' := hcases
      case inr.inr.inl => exact ⟨by omega, by omega, by rw [hfollow]⟩
      all_goals omega
    split at h
    · obtain ⟨hbound, hlt, rfl⟩ := unsigned_unless.mp h
      obtain h' | h' | h' | ⟨-, -, hinfo, hfollow⟩ | h' := hcases
      case inr.inr.inr.inl => exact ⟨by omega, by omega, by rw [hfollow]⟩
      all_goals omega
    split at h
    · obtain ⟨hge, hlt, rfl⟩ := unsigned_wide.mp h
      obtain h' | h' | h' | h' | ⟨-, hinfo, hfollow⟩ := hcases
      case inr.inr.inr.inr => exact ⟨hlt, by omega, by rw [hfollow]⟩
      all_goals omega
    · cases h
  · rintro ⟨hn, rfl, rfl⟩
    obtain ⟨hlt, hinfo, hfollow⟩ | ⟨hge, hlt, hinfo, hfollow⟩ | ⟨hge, hlt, hinfo, hfollow⟩ |
      ⟨hge, hlt, hinfo, hfollow⟩ | ⟨hge, hinfo, hfollow⟩ := hcases
    · rw [hinfo, hfollow, if_pos hlt]
      rfl
    all_goals rw [hinfo, hfollow]
    · exact unsigned_unless.mpr ⟨by omega, hlt, rfl⟩
    · exact unsigned_unless.mpr ⟨by omega, hlt, rfl⟩
    · exact unsigned_unless.mpr ⟨by omega, hlt, rfl⟩
    · exact unsigned_wide.mpr ⟨hge, hn, rfl⟩

end Head

/-! ## Trees -/

/-- Numbers and lengths as an `int` holds them, keys one after another by `R`, and inside an array or
a map, if there may be one, values with `inner`. -/
def Shape (R : Nat → Nat → Prop) (inner : Option (CborValue → Prop)) : CborValue → Prop
  | .unsigned value => value < 2 ^ 63
  | .bytes value => value.length < 2 ^ 63
  | .text value => value.bytes.length < 2 ^ 63
  | .bool _ => True
  | .array items => items.length < 2 ^ 63 ∧ ∃ P, inner = some P ∧ ∀ v ∈ items, P v
  | .map entries => entries.length < 2 ^ 63 ∧ entries.Pairwise (fun e e' => R e.1 e'.1) ∧
      ∃ P, inner = some P ∧ ∀ e ∈ entries, e.1 < 2 ^ 63 ∧ P e.2

/-- At most so many arrays and maps around one another. -/
def Nests (R : Nat → Nat → Prop) : Nat → CborValue → Prop
  | 0 => Shape R none
  | nesting + 1 => Shape R (some (Nests R nesting))

section Nests

variable {R : Nat → Nat → Prop} {nesting : Nat}

@[simp] theorem nests_unsigned {n : Nat} : Nests R nesting (.unsigned n) ↔ n < 2 ^ 63 := by
  cases nesting <;> rfl

@[simp] theorem nests_bytes {b : Bytes} : Nests R nesting (.bytes b) ↔ b.length < 2 ^ 63 := by
  cases nesting <;> rfl

@[simp] theorem nests_text {t : Text} : Nests R nesting (.text t) ↔ t.bytes.length < 2 ^ 63 := by
  cases nesting <;> rfl

@[simp] theorem nests_bool {b : Bool} : Nests R nesting (.bool b) := by
  cases nesting <;> trivial

@[simp] theorem nests_array {items : List CborValue} : Nests R (nesting + 1) (.array items) ↔
    items.length < 2 ^ 63 ∧ ∀ v ∈ items, Nests R nesting v := by
  simp [Nests, Shape]

@[simp] theorem nests_map {entries : List (Nat × CborValue)} : Nests R (nesting + 1) (.map entries)
    ↔
    entries.length < 2 ^ 63 ∧ entries.Pairwise (fun e e' => R e.1 e'.1) ∧
      ∀ e ∈ entries, e.1 < 2 ^ 63 ∧ Nests R nesting e.2 := by
  simp [Nests, Shape]

end Nests

/-- A tree of the subset: the keys of each map are distinct. -/
abbrev Fits : Nat → CborValue → Prop := Nests (· ≠ ·)

/-- A tree as the reader returns it: the keys of each map ascend. -/
abbrev Canonical : Nat → CborValue → Prop := Nests (· < ·)

mutual

/-- The tree without the marks at the beginning of its texts. -/
def dropMarks : CborValue → CborValue
  | .unsigned value => .unsigned value
  | .bytes value => .bytes value
  | .text value => .text value.dropMark
  | .bool value => .bool value
  | .array items => .array (dropItems items)
  | .map entries => .map (dropEntries entries)

def dropItems : List CborValue → List CborValue
  | [] => []
  | item :: items => dropMarks item :: dropItems items

def dropEntries : List (Nat × CborValue) → List (Nat × CborValue)
  | [] => []
  | (key, value) :: entries => (key, dropMarks value) :: dropEntries entries

end

variable (items : List CborValue)

theorem dropItems_eq : dropItems items = items.map dropMarks := by
  induction items with
  | nil => rfl
  | cons item items ih => rw [dropItems, ih, map_cons]

variable (entries : List (Nat × CborValue))

theorem dropEntries_eq : dropEntries entries = entries.map fun e => (e.1, dropMarks e.2) := by
  induction entries with
  | nil => rfl
  | cons e entries ih => rw [dropEntries, ih, map_cons]

theorem encodeItems_eq : encodeItems items = items.flatMap encode := by
  induction items with
  | nil => rfl
  | cons item items ih => rw [encodeItems, ih, flatMap_cons]

variable {α : Type}

theorem encodeEntries_eq : encodeEntries entries = entries.map fun e => (e.1, encode e.2) := by
  induction entries with
  | nil => rfl
  | cons e entries ih => rw [encodeEntries, ih, map_cons]

variable (l : List (Nat × α))

theorem byKey_perm : (byKey l).Perm l := List.perm_insertionSort _ l

theorem byKey_map {α β : Type} (f : α → β) (l : List (Nat × α)) :
    byKey (l.map fun e => (e.1, f e.2)) = (byKey l).map fun e => (e.1, f e.2) := by
  unfold byKey
  rw [List.map_insertionSort (fun a b : Nat × α => a.1 ≤ b.1) (fun a b : Nat × β => a.1 ≤ b.1)]
  exact fun _ _ _ _ => Iff.rfl

theorem byKey_sorted : (byKey l).Pairwise fun a b => a.1 ≤ b.1 :=
  have : Std.Total fun a b : Nat × α => a.1 ≤ b.1 := ⟨fun a b => Nat.le_total a.1 b.1⟩
  have : IsTrans (Nat × α) fun a b => a.1 ≤ b.1 := ⟨fun _ _ _ => Nat.le_trans⟩
  List.pairwise_insertionSort _ l

theorem byKey_byKey : byKey (byKey l) = byKey l :=
  (byKey_sorted l).insertionSort_eq

theorem byKey_eq {l : List (Nat × α)} (h : l.Pairwise (·.1 < ·.1)) : byKey l = l :=
  List.Pairwise.insertionSort_eq (h.imp Nat.le_of_lt)

theorem byKey_ascending {l : List (Nat × α)} (h : l.Pairwise (fun e e' => e.1 ≠ e'.1)) :
    (byKey l).Pairwise (·.1 < ·.1) := by
  have hdistinct := ((byKey_perm l).pairwise_iff (fun h => Ne.symm h)).mpr h
  exact ((byKey_sorted l).and hdistinct).imp fun h => Nat.lt_of_le_of_ne h.1 h.2

def encodeEntry (e : Nat × CborValue) : Bytes := Cbor.head 0 e.1 ++ encode e.2

theorem encode_array :
    encode (.array items) = Cbor.head 4 items.length ++ items.flatMap encode := by
  rw [encode, writeHead_eq, encodeItems_eq]

theorem encode_map {entries : List (Nat × CborValue)} (h : entries.Pairwise (·.1 < ·.1)) :
    encode (.map entries) = Cbor.head 5 entries.length ++ entries.flatMap encodeEntry := by
  have hsorted : byKey (encodeEntries entries) = encodeEntries entries := by
    refine byKey_eq ?_
    rw [encodeEntries_eq, List.pairwise_map]
    exact h
  rw [encode, hsorted, encodeEntries_eq, List.flatMap_map]
  simp only [writeHead_eq]
  rfl

theorem encode_pos (v : CborValue) : 0 < (encode v).length := by
  cases v <;> simp [encode, writeHead_eq, Cbor.head]

/-! ## Reading what was written -/

def CborValue.major : CborValue → Nat
  | .unsigned _ => 0
  | .bytes _ => 2
  | .text _ => 3
  | .bool _ => 7
  | .array _ => 4
  | .map _ => 5

def CborValue.argument : CborValue → Nat
  | .unsigned value => value
  | .bytes value => value.length
  | .text value => value.bytes.length
  | .bool value => if value then 21 else 20
  | .array items => items.length
  | .map entries => entries.length

variable {v : CborValue}

/-- What is written behind the head. -/
def CborValue.payload : CborValue → Bytes
  | .unsigned _ => []
  | .bytes value => value
  | .text value => value.bytes
  | .bool _ => []
  | .array items => items.flatMap encode
  | .map entries => entries.flatMap encodeEntry

section Read

variable {inner : Option (CborValue → Prop)} {nested : Option (CborReader CborValue)}

theorem encode_eq (h : Shape (· < ·) inner v) :
    encode v = Cbor.head v.major v.argument ++ v.payload := by
  cases v with
  | unsigned value => exact (writeHead_eq 0 value).trans (List.append_nil _).symm
  | bytes value | text value => rw [encode, writeHead_eq]; rfl
  | bool value => cases value <;> rfl
  | array items => exact encode_array items
  | map entries => exact encode_map h.2.1

theorem key_iff {k : Nat} :
    CborReader.key.run input = .ok (k, rest) ↔ k < 2 ^ 63 ∧ input = Cbor.head 0 k ++ rest := by
  unfold CborReader.key
  rw [Exact.bind_run]
  constructor
  · rintro ⟨b, mid, hbyte, h⟩
    obtain ⟨-, rfl⟩ := (Cbor.byte_exact _ _ _ _).mp hbyte
    split at h
    · cases h
    · next hmajor =>
      obtain ⟨hk, hinfo, rfl⟩ := argument_iff.mp h
      rw [firstByte_of (not_not.mp hmajor) hinfo]
      exact ⟨hk, rfl⟩
  · rintro ⟨hk, rfl⟩
    refine ⟨_, _, (Cbor.byte_exact _ _ _ _).mpr ⟨trivial, rfl⟩, ?_⟩
    rw [if_neg (not_not.mpr (firstByte_major (by decide) k))]
    exact argument_iff.mpr ⟨hk, firstByte_info (by decide) k, rfl⟩

theorem entries_views {read : CborReader CborValue} {P : CborValue → Prop}
    (hread : Views read P encode dropMarks) (previous : Option Nat) (count : Nat) :
    Views (CborReader.entries read previous count)
      (fun l => l.length = count ∧ l.Pairwise (·.1 < ·.1) ∧
        ∀ e ∈ l, previous.any (e.1 ≤ ·) = false ∧ e.1 < 2 ^ 63 ∧ P e.2)
      (List.flatMap encodeEntry) (List.map fun e => (e.1, dropMarks e.2)) := by
  induction count generalizing previous with
  | zero =>
    intro input l rest
    constructor
    · intro heq
      cases heq
      exact ⟨[], ⟨rfl, .nil, nofun⟩, rfl, rfl⟩
    · rintro ⟨l', ⟨hlength, -⟩, rfl, rfl⟩
      obtain rfl := List.length_eq_zero_iff.mp hlength
      rfl
  | succ count ih =>
    intro input l rest
    unfold CborReader.entries
    rw [Exact.bind_run]
    constructor
    · rintro ⟨k, mid, hkey, h⟩
      obtain ⟨hk, rfl⟩ := key_iff.mp hkey
      split at h
      · cases h
      next hafter =>
      obtain ⟨c, mid', hvalue, hentries⟩ := Exact.bind_run.mp h
      obtain ⟨v, hv, rfl, rfl⟩ := (hread _ _ _).mp hvalue
      obtain ⟨cs, mid'', hrest, hret⟩ := Exact.bind_run.mp hentries
      obtain ⟨es, ⟨hlength, hsorted, hes⟩, rfl, rfl⟩ := (ih (some k) _ _ _).mp hrest
      cases hret
      have habove : ∀ e ∈ es, k < e.1 := fun e he => by simpa using (hes e he).1
      refine ⟨(k, v) :: es, ⟨by simp [hlength],
        List.pairwise_cons.mpr ⟨habove, hsorted⟩, ?_⟩, rfl, ?_⟩
      · intro e he
        rcases List.mem_cons.mp he with rfl | he
        · exact ⟨by simpa using hafter, hk, hv⟩
        · refine ⟨?_, (hes e he).2⟩
          have hlt := habove e he
          rw [Bool.not_eq_true] at hafter
          rw [Option.any_eq_false] at hafter ⊢
          intro p hp
          have hp := hafter p hp
          rw [decide_eq_false_iff_not] at hp ⊢
          omega
      · rw [flatMap_cons, encodeEntry, append_assoc, append_assoc]
    · rintro ⟨l', ⟨hlength, hsorted, hes⟩, rfl, rfl⟩
      obtain _ | ⟨⟨k, v⟩, es⟩ := l'
      · cases hlength
      obtain ⟨hafter, hk, hv⟩ := hes (k, v) (List.mem_cons_self ..)
      rw [List.pairwise_cons] at hsorted
      rw [flatMap_cons, encodeEntry, append_assoc, append_assoc]
      refine ⟨k, _, key_iff.mpr ⟨hk, rfl⟩, ?_⟩
      rw [if_neg (by simpa using hafter)]
      refine Exact.bind_run.mpr ⟨_, _, (hread _ _ _).mpr ⟨v, hv, rfl, rfl⟩, ?_⟩
      refine Exact.bind_run.mpr ⟨_, _,
        (ih (some k) _ _ _).mpr ⟨es, ⟨?_, hsorted.2, ?_⟩, rfl, rfl⟩, rfl⟩
      · exact Nat.succ.inj hlength
      · intro e he
        have := hsorted.1 e he
        exact ⟨by simpa using this, (hes e (List.mem_cons_of_mem _ he)).2⟩

theorem length_le_flatMap {f : α → Bytes} {k : Nat} (hf : ∀ a, k ≤ (f a).length)
    (l : List α) : k * l.length ≤ (l.flatMap f).length := by
  induction l with
  | nil => simp
  | cons a l ih =>
    have := hf a
    rw [List.length_cons, flatMap_cons, length_append, Nat.mul_succ]
    omega

theorem encodeEntry_two (e : Nat × CborValue) : 2 ≤ (encodeEntry e).length := by
  have := encode_pos e.2
  rw [encodeEntry, length_append, Cbor.head, List.length_cons]
  omega

theorem utf8Decode_eq_some {b : Bytes} {t : Text} :
    utf8Decode b = some t ↔ ∃ t' : Text, t'.dropMark = t ∧ b = t'.bytes := by
  rw [utf8Decode, Option.map_eq_some_iff]
  constructor
  · rintro ⟨t', ht, rfl⟩
    exact ⟨t', rfl, Text.ofBytes?_eq_some.mp ht⟩
  · rintro ⟨t', rfl, rfl⟩
    exact ⟨t', Text.ofBytes?_eq_some.mpr rfl, rfl⟩

/-- The reader of the values inside, if there may be any. -/
abbrev Nested (nested : Option (CborReader CborValue)) (inner : Option (CborValue → Prop)) : Prop :=
  Option.Rel (fun read P => Views read P encode dropMarks) nested inner

theorem contents_sound (hn : Nested nested inner) {major low : Nat} {mid rest : Bytes}
    {c : CborValue}
    (h : (CborReader.contents nested major low).run mid = .ok (c, rest)) :
    ∃ v, Shape (· < ·) inner v ∧ dropMarks v = c ∧ v.major = major ∧ low = Cbor.info v.argument ∧
      mid = Cbor.follow v.argument ++ (v.payload ++ rest) := by
  unfold CborReader.contents at h
  split at h
  · obtain ⟨n, mid', hargument, hret⟩ := Exact.bind_run.mp h
    obtain ⟨hlt, hlow, rfl⟩ := argument_iff.mp hargument
    cases hret
    exact ⟨.unsigned n, hlt, rfl, rfl, hlow, rfl⟩
  · obtain ⟨n, mid', hargument, htake⟩ := Exact.bind_run.mp h
    obtain ⟨hlt, hlow, rfl⟩ := argument_iff.mp hargument
    obtain ⟨b, left, hb, hret⟩ := Exact.bind_run.mp htake
    obtain ⟨rfl, rfl⟩ := (takeFront_exact _ _ _ _ _).mp hb
    cases hret
    exact ⟨.bytes b, hlt, rfl, rfl, hlow, rfl⟩
  · obtain ⟨n, mid', hargument, htake⟩ := Exact.bind_run.mp h
    obtain ⟨hlt, hlow, rfl⟩ := argument_iff.mp hargument
    obtain ⟨b, left, hb, htext⟩ := Exact.bind_run.mp htake
    obtain ⟨rfl, rfl⟩ := (takeFront_exact _ _ _ _ _).mp hb
    split at htext
    · next hdecoded =>
      obtain ⟨t, rfl, rfl⟩ := utf8Decode_eq_some.mp hdecoded
      cases htext
      exact ⟨.text t, hlt, rfl, rfl, hlow, rfl⟩
    · cases htext
  · obtain ⟨n, mid', hargument, hitems⟩ := Exact.bind_run.mp h
    obtain ⟨hlt, hlow, rfl⟩ := argument_iff.mp hargument
    cases hn with
    | none => cases hitems
    | some hread =>
      obtain ⟨r, left, hleft, hmany⟩ := Exact.bind_run.mp hitems
      cases hleft
      split at hmany
      · cases hmany
      obtain ⟨l, left', hl, hret⟩ := Exact.bind_run.mp hmany
      obtain ⟨items, ⟨rfl, hall⟩, rfl, rfl⟩ := (hread.many n _ _ _).mp hl
      cases hret
      refine ⟨.array items, ⟨hlt, _, rfl, hall⟩, ?_, rfl, hlow, rfl⟩
      rw [dropMarks, dropItems_eq]
  · obtain ⟨n, mid', hargument, hitems⟩ := Exact.bind_run.mp h
    obtain ⟨hlt, hlow, rfl⟩ := argument_iff.mp hargument
    cases hn with
    | none => cases hitems
    | some hread =>
      obtain ⟨r, left, hleft, hmany⟩ := Exact.bind_run.mp hitems
      cases hleft
      split at hmany
      · cases hmany
      obtain ⟨l, left', hl, hret⟩ := Exact.bind_run.mp hmany
      obtain ⟨es, ⟨rfl, hsorted, hes⟩, rfl, rfl⟩ := (entries_views hread none n _ _ _).mp hl
      cases hret
      refine ⟨.map es, ⟨hlt, hsorted, _, rfl, fun e he => (hes e he).2⟩, ?_, rfl, hlow, rfl⟩
      rw [dropMarks, dropEntries_eq]
  · split at h
    · next hlow =>
      cases h
      exact ⟨.bool false, trivial, rfl, rfl, hlow, rfl⟩
    · split at h
      · next hlow =>
        obtain ⟨rfl, rfl⟩ := Prod.mk.inj (Except.ok.inj h)
        exact ⟨.bool true, trivial, rfl, rfl, hlow, rfl⟩
      · cases h
  · cases h

/-- What was written for a value is read behind its first byte. -/
theorem contents_complete (hn : Nested nested inner) (hv : Shape (· < ·) inner v) (rest : Bytes) :
    (CborReader.contents nested v.major (Cbor.info v.argument)).run
      (Cbor.follow v.argument ++ (v.payload ++ rest)) = .ok (dropMarks v, rest) := by
  have hargument : ∀ {n : Nat} {tail : Bytes}, n < 2 ^ 63 →
      (CborReader.argument (Cbor.info n)).run (Cbor.follow n ++ tail) = .ok (n, tail) :=
    fun hlt => argument_iff.mpr ⟨hlt, rfl, rfl⟩
  cases v with
  | unsigned n => exact Exact.bind_run.mpr ⟨n, rest, hargument hv, rfl⟩
  | bytes b =>
    refine Exact.bind_run.mpr ⟨_, _, hargument hv, ?_⟩
    exact Exact.bind_run.mpr ⟨b, rest, (takeFront_exact _ _ _ _ _).mpr ⟨rfl, rfl⟩, rfl⟩
  | text t =>
    refine Exact.bind_run.mpr ⟨_, _, hargument hv, ?_⟩
    refine Exact.bind_run.mpr ⟨t.bytes, rest, (takeFront_exact _ _ _ _ _).mpr ⟨rfl, rfl⟩, ?_⟩
    rw [utf8Decode_eq_some.mpr ⟨t, rfl, rfl⟩]
    rfl
  | bool b => cases b <;> rfl
  | array items =>
    obtain ⟨hlt, P, rfl, hall⟩ := hv
    obtain @⟨read, _, hread⟩ := hn
    refine Exact.bind_run.mpr ⟨_, _, hargument hlt, ?_⟩
    refine Exact.bind_run.mpr ⟨_, _, rfl, ?_⟩
    have hcount := length_le_flatMap encode_pos items
    have hleft : ¬ items.length > (items.flatMap encode ++ rest).length := by
      rw [length_append]
      omega
    rw [CborValue.payload, CborValue.argument, if_neg hleft, dropMarks, dropItems_eq]
    exact Exact.bind_run.mpr ⟨_, _, (hread.many _ _ _ _).mpr ⟨items, ⟨rfl, hall⟩, rfl, rfl⟩, rfl⟩
  | map es =>
    obtain ⟨hlt, hsorted, P, rfl, hall⟩ := hv
    obtain @⟨read, _, hread⟩ := hn
    refine Exact.bind_run.mpr ⟨_, _, hargument hlt, ?_⟩
    refine Exact.bind_run.mpr ⟨_, _, rfl, ?_⟩
    have hcount := length_le_flatMap encodeEntry_two es
    have hleft : ¬ es.length > (es.flatMap encodeEntry ++ rest).length / 2 := by
      rw [length_append]
      omega
    rw [CborValue.payload, CborValue.argument, if_neg hleft, dropMarks, dropEntries_eq]
    have hes := (entries_views hread none es.length _ _ rest).mpr
      ⟨es, ⟨rfl, hsorted, fun e he => ⟨rfl, hall e he⟩⟩, rfl, rfl⟩
    exact Exact.bind_run.mpr ⟨_, _, hes, rfl⟩

theorem major_lt (v : CborValue) : v.major < 8 := by
  cases v <;> simp [CborValue.major]

theorem item_views (hn : Nested nested inner) :
    Views (CborReader.item nested) (Shape (· < ·) inner) encode dropMarks := by
  intro input c rest
  unfold CborReader.item
  rw [Exact.bind_run]
  constructor
  · rintro ⟨b, mid, hbyte, h⟩
    obtain ⟨-, rfl⟩ := (Cbor.byte_exact _ _ _ _).mp hbyte
    obtain ⟨v, hv, hc, hmajor, hlow, rfl⟩ := contents_sound hn h
    refine ⟨v, hv, hc, ?_⟩
    rw [encode_eq hv, firstByte_of hmajor.symm hlow]
    simp only [Cbor.head, List.cons_append, List.nil_append, append_assoc]
  · rintro ⟨v, hv, rfl, rfl⟩
    rw [encode_eq hv, append_assoc]
    refine ⟨_, _, (Cbor.byte_exact _ _ _ _).mpr ⟨trivial, rfl⟩, ?_⟩
    rw [firstByte_major (major_lt v), firstByte_info (major_lt v)]
    exact contents_complete hn hv rest

end Read

/-- The reader returns the tree that was written, without the marks at the beginning of texts. -/
theorem read_views (nesting : Nat) :
    Views (CborReader.read nesting) (Canonical nesting) encode dropMarks := by
  induction nesting with
  | zero => exact item_views .none
  | succ nesting ih => exact item_views (.some ih)

variable {nesting : Nat} {w : CborValue}

/-- Decoding accepts exactly what is written for a canonical tree. -/
theorem decode_eq_ok {b : Bytes} :
    decode nesting b = .ok w ↔ ∃ v, Canonical nesting v ∧ dropMarks v = w ∧ b = encode v := by
  unfold decode
  rw [bind_eq_ok]
  constructor
  · rintro ⟨⟨c, rest⟩, hread, h⟩
    obtain ⟨v, hv, rfl, rfl⟩ := (read_views nesting _ _ _).mp hread
    dsimp only at h
    split at h
    · next hrest =>
      obtain rfl := List.isEmpty_iff.mp hrest
      cases h
      exact ⟨v, hv, rfl, List.append_nil _⟩
    · cases h
  · rintro ⟨v, hv, rfl, rfl⟩
    exact ⟨(dropMarks v, []), (read_views nesting _ _ _).mpr
      ⟨v, hv, rfl, (List.append_nil _).symm⟩, rfl⟩

/-! ## Different trees -/

theorem head_inj {major major' n n' : Nat} {rest rest' : Bytes} (hmajor : major < 8)
    (hmajor' : major' < 8) (hn : n < 2 ^ 63) (hn' : n' < 2 ^ 63)
    (h : Cbor.head major n ++ rest = Cbor.head major' n' ++ rest') :
    major = major' ∧ n = n' ∧ rest = rest' := by
  rw [Cbor.head, Cbor.head, List.cons_append, List.cons_append, List.cons.injEq] at h
  obtain ⟨hfirst, hfollow⟩ := h
  have hinfo : Cbor.info n = Cbor.info n' := by
    rw [← firstByte_info hmajor n, hfirst, firstByte_info hmajor' n']
  have hread := argument_iff.mpr ⟨hn, rfl, hfollow.symm⟩
  rw [hinfo, argument_iff.mpr ⟨hn', rfl, rfl⟩] at hread
  obtain ⟨rfl, rfl⟩ := Prod.mk.inj (Except.ok.inj hread)
  exact ⟨by rw [← firstByte_major hmajor n', hfirst, firstByte_major hmajor' n'], rfl, rfl⟩

variable {inner : Option (CborValue → Prop)}

theorem argument_lt (h : Shape (· < ·) inner v) : v.argument < 2 ^ 63 := by
  cases v with
  | unsigned => exact h
  | bytes => exact h
  | text => exact h
  | bool b => cases b <;> decide
  | array => exact h.1
  | map => exact h.1

theorem encodeEntry_unambiguous {P : CborValue → Prop} (h : Unambiguous P encode) :
    Unambiguous (fun e => e.1 < 2 ^ 63 ∧ P e.2) encodeEntry := by
  rintro ⟨k, v⟩ ⟨k', v'⟩ rest rest' ⟨hk, hv⟩ ⟨hk', hv'⟩ heq
  rw [encodeEntry, encodeEntry, append_assoc, append_assoc] at heq
  obtain ⟨-, rfl, hvalue⟩ := head_inj (by decide) (by decide) hk hk' heq
  obtain ⟨rfl, rfl⟩ := h _ _ _ _ hv hv' hvalue
  exact ⟨rfl, rfl⟩

theorem shape_unambiguous (hinner : ∀ P, inner = some P → Unambiguous P encode) :
    Unambiguous (Shape (· < ·) inner) encode := by
  intro v v' rest rest' hv hv' heq
  rw [encode_eq hv, encode_eq hv', append_assoc, append_assoc] at heq
  obtain ⟨hmajor, hargument, hpayload⟩ :=
    head_inj (major_lt v) (major_lt v') (argument_lt hv) (argument_lt hv') heq
  cases v <;> cases v' <;> cases hmajor
  case unsigned => exact ⟨congrArg _ hargument, hpayload⟩
  case bytes =>
    obtain ⟨rfl, rfl⟩ := List.append_inj hpayload hargument
    exact ⟨rfl, rfl⟩
  case text =>
    obtain ⟨hbytes, rfl⟩ := List.append_inj hpayload hargument
    exact ⟨congrArg _ (Text.ext hbytes), rfl⟩
  case bool b b' =>
    cases b <;> cases b' <;> simp [CborValue.argument] at hargument <;> exact ⟨rfl, hpayload⟩
  case array =>
    obtain ⟨-, P, hP, hall⟩ := hv
    obtain ⟨-, P', hP', hall'⟩ := hv'
    cases hP.symm.trans hP'
    obtain ⟨rfl, rfl⟩ := (hinner P hP).list _ _ hargument hall hall' _ _ hpayload
    exact ⟨rfl, rfl⟩
  case map =>
    obtain ⟨-, -, P, hP, hall⟩ := hv
    obtain ⟨-, -, P', hP', hall'⟩ := hv'
    cases hP.symm.trans hP'
    obtain ⟨rfl, rfl⟩ := (encodeEntry_unambiguous (hinner P hP)).list _ _ hargument hall hall'
      _ _ hpayload
    exact ⟨rfl, rfl⟩

theorem encode_unambiguous (nesting : Nat) : Unambiguous (Canonical nesting) encode := by
  induction nesting with
  | zero => exact shape_unambiguous nofun
  | succ nesting ih => exact shape_unambiguous fun P hP => Option.some.inj hP ▸ ih

theorem encode_inj {v v' : CborValue} (hv : Canonical nesting v)
    (hv' : Canonical nesting v') (h : encode v = encode v') : v = v' :=
  (encode_unambiguous nesting v v' [] [] hv hv' (congrArg (· ++ []) h)).1

/-! ## Maps in any order -/

@[elab_as_elim]
theorem CborValue.induction {motive : CborValue → Prop} (unsigned : ∀ n, motive (.unsigned n))
    (bytes : ∀ b, motive (.bytes b)) (text : ∀ t, motive (.text t)) (bool : ∀ b, motive (.bool b))
    (array : ∀ items, (∀ v ∈ items, motive v) → motive (.array items))
    (map : ∀ es : List (Nat × CborValue), (∀ e ∈ es, motive e.2) → motive (.map es))
    (v : CborValue) : motive v :=
  @CborValue.rec motive (fun items => ∀ v ∈ items, motive v) (fun es => ∀ e ∈ es, motive e.2)
    (fun e => motive e.2) unsigned bytes text bool array map nofun
    (fun _ _ hv hitems => List.forall_mem_cons.mpr ⟨hv, hitems⟩) nofun
    (fun _ _ he hes => List.forall_mem_cons.mpr ⟨he, hes⟩) (fun _ _ hv => hv) v

mutual

/-- The tree with the entries of each map by ascending key. -/
def inOrder : CborValue → CborValue
  | .unsigned value => .unsigned value
  | .bytes value => .bytes value
  | .text value => .text value
  | .bool value => .bool value
  | .array items => .array (orderItems items)
  | .map entries => .map (byKey (orderEntries entries))

def orderItems : List CborValue → List CborValue
  | [] => []
  | item :: items => inOrder item :: orderItems items

def orderEntries : List (Nat × CborValue) → List (Nat × CborValue)
  | [] => []
  | (key, value) :: entries => (key, inOrder value) :: orderEntries entries

end

mutual

def texts : CborValue → List Text
  | .unsigned _ => []
  | .bytes _ => []
  | .text value => [value]
  | .bool _ => []
  | .array items => textsOfItems items
  | .map entries => textsOfEntries entries

def textsOfItems : List CborValue → List Text
  | [] => []
  | item :: items => texts item ++ textsOfItems items

def textsOfEntries : List (Nat × CborValue) → List Text
  | [] => []
  | (_, value) :: entries => texts value ++ textsOfEntries entries

end

/-- The same values: the order of the entries of a map does not count. -/
def Same (v w : CborValue) : Prop := inOrder v = inOrder w

/-- No text begins with a byte-order mark. -/
def Unmarked (v : CborValue) : Prop := ∀ t ∈ texts v, t.hasMark = false

theorem orderItems_eq : orderItems items = items.map inOrder := by
  induction items with
  | nil => rfl
  | cons item items ih => rw [orderItems, ih, map_cons]

theorem orderEntries_eq : orderEntries entries = entries.map fun e => (e.1, inOrder e.2) := by
  induction entries with
  | nil => rfl
  | cons e entries ih => rw [orderEntries, ih, map_cons]

theorem textsOfItems_eq : textsOfItems items = items.flatMap texts := by
  induction items with
  | nil => rfl
  | cons item items ih => rw [textsOfItems, ih, flatMap_cons]

theorem textsOfEntries_eq : textsOfEntries entries = entries.flatMap fun e => texts e.2 := by
  induction entries with
  | nil => rfl
  | cons e entries ih => rw [textsOfEntries, ih, flatMap_cons]

theorem unmarked_array {items : List CborValue} :
    Unmarked (.array items) ↔ ∀ v ∈ items, Unmarked v := by
  unfold Unmarked
  rw [texts, textsOfItems_eq, List.forall_mem_flatMap]

theorem unmarked_map {entries : List (Nat × CborValue)} :
    Unmarked (.map entries) ↔ ∀ e ∈ entries, Unmarked e.2 := by
  unfold Unmarked
  rw [texts, textsOfEntries_eq, List.forall_mem_flatMap]

/-- The writer orders the entries of a map itself. -/
theorem encode_inOrder (v : CborValue) : encode (inOrder v) = encode v := by
  induction v using CborValue.induction with
  | unsigned n => rfl
  | bytes b => rfl
  | text t => rfl
  | bool b => rfl
  | array items ih =>
    rw [inOrder, encode_array, encode_array, orderItems_eq, length_map, List.flatMap_map]
    exact congrArg _ (List.flatMap_congr ih)
  | map es ih =>
    have hes : encodeEntries (es.map fun e => (e.1, inOrder e.2)) = encodeEntries es := by
      rw [encodeEntries_eq, encodeEntries_eq, List.map_map]
      exact List.map_congr_left fun e he => congrArg (e.1, ·) (ih e he)
    have hsorted : byKey (encodeEntries (byKey (orderEntries es))) = byKey (encodeEntries es) := by
      rw [orderEntries_eq, encodeEntries_eq, byKey_map, byKey_byKey, ← byKey_map,
        ← encodeEntries_eq, hes]
    rw [inOrder, encode, encode, hsorted, (byKey_perm _).length_eq, orderEntries_eq, length_map]

theorem length_le_of_mem {f : α → Bytes} {l : List α} {a : α} (h : a ∈ l) :
    (f a).length ≤ (l.flatMap f).length := by
  simpa using ((List.singleton_sublist.mpr h).flatMap f).length_le

theorem length_text_le {t : Text} (h : t ∈ texts v) : t.bytes.length ≤ (encode v).length := by
  induction v using CborValue.induction with
  | unsigned n => cases h
  | bytes b => cases h
  | text t' =>
    obtain rfl := List.mem_singleton.mp h
    rw [encode, length_append]
    exact Nat.le_add_left ..
  | bool b => cases h
  | array items ih =>
    rw [texts, textsOfItems_eq] at h
    obtain ⟨v, hv, ht⟩ := List.mem_flatMap.mp h
    rw [encode_array, length_append]
    calc t.bytes.length ≤ (encode v).length := ih v hv ht
      _ ≤ (items.flatMap encode).length := length_le_of_mem hv
      _ ≤ _ := Nat.le_add_left ..
  | map es ih =>
    rw [texts, textsOfEntries_eq] at h
    obtain ⟨e, he, ht⟩ := List.mem_flatMap.mp h
    have hentry : (e.1, encode e.2) ∈ byKey (encodeEntries es) := by
      rw [(byKey_perm _).mem_iff, encodeEntries_eq]
      exact List.mem_map.mpr ⟨e, he, rfl⟩
    rw [encode, length_append]
    calc t.bytes.length ≤ (encode e.2).length := ih e he ht
      _ ≤ (writeHead 0 e.1 ++ encode e.2).length := by rw [length_append]; exact Nat.le_add_left ..
      _ ≤ _ := length_le_of_mem (f := fun e => writeHead 0 e.1 ++ e.2) hentry
      _ ≤ _ := Nat.le_add_left ..

theorem map_eq_self {f : α → α} {l : List α} : l.map f = l ↔ ∀ a ∈ l, f a = a := by
  simpa using List.map_inj_left (f := f) (g := id) (l := l)

theorem dropMarks_eq_self : dropMarks v = v ↔ Unmarked v := by
  induction v using CborValue.induction with
  | unsigned n | bytes b => exact ⟨fun _ => nofun, fun _ => rfl⟩
  | text t => rw [dropMarks, CborValue.text.injEq, Text.dropMark_eq_self]; simp [Unmarked, texts]
  | bool b => exact ⟨fun _ => nofun, fun _ => rfl⟩
  | array items ih =>
    rw [dropMarks, dropItems_eq, CborValue.array.injEq, map_eq_self, unmarked_array]
    exact forall₂_congr ih
  | map es ih =>
    rw [dropMarks, dropEntries_eq, CborValue.map.injEq, map_eq_self, unmarked_map]
    refine forall₂_congr fun e he => ?_
    rw [← ih e he, Prod.ext_iff]
    exact and_iff_right rfl

theorem unmarked_inOrder : Unmarked (inOrder v) ↔ Unmarked v := by
  induction v using CborValue.induction with
  | unsigned n => rfl
  | bytes b => rfl
  | text t => rfl
  | bool b => rfl
  | array items ih =>
    rw [inOrder, unmarked_array, unmarked_array, orderItems_eq, forall_mem_map]
    exact forall₂_congr ih
  | map es ih =>
    rw [inOrder, unmarked_map, unmarked_map, orderEntries_eq]
    simp only [(byKey_perm _).mem_iff, forall_mem_map]
    exact forall₂_congr ih

theorem shape_inOrder {inner' : Option (CborValue → Prop)}
    (h : Option.Rel (fun P P' => ∀ v, P v → P' (inOrder v)) inner inner')
    (hv : Shape (· ≠ ·) inner v) : Shape (· < ·) inner' (inOrder v) := by
  cases v with
  | unsigned | bytes | text | bool => exact hv
  | array items =>
    obtain ⟨hlt, P, rfl, hall⟩ := hv
    obtain @⟨_, P', hinner⟩ := h
    rw [inOrder, orderItems_eq]
    refine ⟨by rwa [length_map], P', rfl, ?_⟩
    exact forall_mem_map.mpr fun v hv => hinner v (hall v hv)
  | map es =>
    obtain ⟨hlt, hkeys, P, rfl, hall⟩ := hv
    obtain @⟨_, P', hinner⟩ := h
    have hperm := byKey_perm (es.map fun e => (e.1, inOrder e.2))
    rw [inOrder, orderEntries_eq]
    refine ⟨by rwa [hperm.length_eq, length_map], byKey_ascending ?_, P', rfl, ?_⟩
    · rwa [List.pairwise_map]
    · intro e he
      obtain ⟨e', he', rfl⟩ := List.mem_map.mp (hperm.mem_iff.mp he)
      exact ⟨(hall e' he').1, hinner e'.2 (hall e' he').2⟩

theorem inOrder_canonical : ∀ v, Fits nesting v → Canonical nesting (inOrder v) := by
  induction nesting with
  | zero => exact fun v hv => shape_inOrder .none hv
  | succ nesting ih => exact fun v hv => shape_inOrder (.some ih) hv

theorem inOrder_of_canonical : ∀ v, Canonical nesting v → inOrder v = v := by
  have hstep : ∀ inner : Option (CborValue → Prop), (∀ P, inner = some P → ∀ v, P v → inOrder v = v) →
      ∀ v, Shape (· < ·) inner v → inOrder v = v := by
    intro inner hinner v hv
    cases v with
    | unsigned | bytes | text | bool => rfl
    | array items =>
      obtain ⟨-, P, hP, hall⟩ := hv
      rw [inOrder, orderItems_eq, map_eq_self.mpr fun v hv => hinner P hP v (hall v hv)]
    | map es =>
      obtain ⟨-, hkeys, P, hP, hall⟩ := hv
      have hself : es.map (fun e => (e.1, inOrder e.2)) = es :=
        map_eq_self.mpr fun e he => congrArg (e.1, ·) (hinner P hP e.2 (hall e he).2)
      rw [inOrder, orderEntries_eq, hself, byKey_eq hkeys]
  induction nesting with
  | zero => exact hstep none nofun
  | succ nesting ih => exact hstep _ fun P hP => Option.some.inj hP ▸ ih

theorem dropMarks_canonical : ∀ v, Canonical nesting v → Canonical nesting (dropMarks v) := by
  have hstep : ∀ inner : Option (CborValue → Prop),
    (∀ P, inner = some P → ∀ v, P v → P (dropMarks v)) →
      ∀ v, Shape (· < ·) inner v → Shape (· < ·) inner (dropMarks v) := by
    intro inner hinner v hv
    cases v with
    | unsigned | bytes | bool => exact hv
    | text t => exact Nat.lt_of_le_of_lt t.length_dropMark hv
    | array items =>
      obtain ⟨hlt, P, hP, hall⟩ := hv
      rw [dropMarks, dropItems_eq]
      refine ⟨by rwa [length_map], P, hP, ?_⟩
      exact forall_mem_map.mpr fun v hv => hinner P hP v (hall v hv)
    | map es =>
      obtain ⟨hlt, hkeys, P, hP, hall⟩ := hv
      rw [dropMarks, dropEntries_eq]
      refine ⟨by rwa [length_map], by rwa [List.pairwise_map], P, hP, ?_⟩
      exact forall_mem_map.mpr fun e he => ⟨(hall e he).1, hinner P hP e.2 (hall e he).2⟩
  induction nesting with
  | zero => exact hstep none nofun
  | succ nesting ih => exact hstep _ fun P hP => Option.some.inj hP ▸ ih

theorem canonical_fits : ∀ v, Canonical nesting v → Fits nesting v := by
  have hstep : ∀ inner inner' : Option (CborValue → Prop),
      Option.Rel (fun P P' => ∀ v, P v → P' v) inner inner' →
      ∀ v, Shape (· < ·) inner v → Shape (· ≠ ·) inner' v := by
    intro inner inner' hinner v hv
    cases v with
    | unsigned | bytes | text | bool => exact hv
    | array items =>
      obtain ⟨hlt, P, rfl, hall⟩ := hv
      obtain @⟨_, P', hinner⟩ := hinner
      exact ⟨hlt, P', rfl, fun v hv => hinner v (hall v hv)⟩
    | map es =>
      obtain ⟨hlt, hkeys, P, rfl, hall⟩ := hv
      obtain @⟨_, P', hinner⟩ := hinner
      exact ⟨hlt, hkeys.imp Nat.ne_of_lt, P', rfl, fun e he => (hall e he).imp id (hinner e.2)⟩
  induction nesting with
  | zero => exact hstep none none .none
  | succ nesting ih => exact hstep _ _ (.some ih)

/-! ## Round trips -/

theorem decode_encode (hv : Fits nesting v) :
    decode nesting (encode v) = .ok (dropMarks (inOrder v)) :=
  decode_eq_ok.mpr ⟨inOrder v, inOrder_canonical v hv, rfl, (encode_inOrder v).symm⟩

/-- A tree comes back from its encoding exactly if no text in it begins with a byte-order mark. -/
theorem decode_encode_iff (hv : Fits nesting v) :
    (∃ w, decode nesting (encode v) = .ok w ∧ Same w v) ↔ Unmarked v := by
  have hcanonical := inOrder_canonical v hv
  have hsame : Same (dropMarks (inOrder v)) v ↔ Unmarked v := by
    rw [Same, inOrder_of_canonical _ (dropMarks_canonical _ hcanonical), dropMarks_eq_self,
      unmarked_inOrder]
  rw [decode_encode hv, ← hsame]
  constructor
  · rintro ⟨w, hw, h⟩
    rwa [Except.ok.inj hw]
  · exact fun h => ⟨_, rfl, h⟩

/-- An accepted encoding comes back from its tree exactly if it was not written for a tree in which a
text begins with a byte-order mark. -/
theorem encode_decode_iff {b : Bytes} (h : decode nesting b = .ok w) :
    encode w = b ↔ ∀ v, Fits nesting v → encode v = b → Unmarked v := by
  obtain ⟨v, hv, rfl, rfl⟩ := decode_eq_ok.mp h
  have hself : encode (dropMarks v) = encode v ↔ Unmarked v := by
    rw [← dropMarks_eq_self]
    exact ⟨encode_inj (dropMarks_canonical v hv) hv, congrArg encode⟩
  rw [hself]
  constructor
  · intro hunmarked u hu henc
    rw [← encode_inOrder] at henc
    rwa [← unmarked_inOrder, encode_inj (inOrder_canonical u hu) hv henc]
  · exact fun hall => hall v (canonical_fits v hv) rfl

end CommPlatform.DeterministicCbor
