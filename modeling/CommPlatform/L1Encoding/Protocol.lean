import CommPlatform.Core.Bytes
import CommPlatform.Core.Codec

/-!
# Byte framing of the native core

`protocol.rs`, `bounds.rs` and `error.rs`. A `Reader` is a state
transformer over the bytes not yet read; `usize` is `Nat` (64-bit, and no
sum below comes near `2^64`). Each writer has a simp lemma that says the
matching reader takes it off the front of the input, so a decoder run on an
encoder's output is evaluated by `simp`; the `_exact` lemmas say also that a
reader accepts nothing else.

Bare line numbers are those of `protocol.rs`.
-/
namespace CommPlatform.L1

open CommPlatform.Core

/-- mirrors error.rs:4-20 -/
inductive CryptoError
  | ok | invalidArgument | inputTooLarge | outputTooSmall | malformedInput | invalidHandle
  | wrongHandleType | authenticationFailed | unsupportedVersion | unsupportedOperation
  | resourceExhausted | entropyUnavailable | stateViolation | internalFailure | panicContained
deriving DecidableEq

abbrev CryptoResult (α : Type) := Except CryptoError α

/-- mirrors bounds.rs:3 -/
def maxInputBytes : Nat := 1048576

/-! ## Reader -/

/-- The bytes after `position`. -/
abbrev Reader := StateT Bytes CryptoResult

namespace Reader

/-- mirrors :23-34 -/
def take (n : Nat) : Reader Bytes := fun r =>
  if n ≤ r.length then .ok (r.take n, r.drop n) else .error .malformedInput

/-- mirrors :48-52 -/
def array (n : Nat) : Reader (Block n) := fun r =>
  if h : n ≤ r.length then .ok (Block.ofTake n r h, r.drop n) else .error .malformedInput

/-- mirrors :54-56 -/
def u8 : Reader UInt8 := fun
  | b :: r => .ok (b, r)
  | [] => .error .malformedInput

/-- mirrors :58-64 -/
def boolean : Reader Bool := do
  let b ← u8
  if b = 0 then return false
  else if b = 1 then return true
  else throw .malformedInput

/-- mirrors :66-68 -/
def u16 : Reader UInt16 := do
  let b ← array 2
  return UInt16.ofNat (ofBe b.bytes)

/-- mirrors :70-72 -/
def u32 : Reader UInt32 := do
  let b ← array 4
  return UInt32.ofNat (ofBe b.bytes)

/-- mirrors :74-76 -/
def u64 : Reader UInt64 := do
  let b ← array 8
  return UInt64.ofNat (ofBe b.bytes)

def failIf (c : Bool) (e : CryptoError) : Reader Unit := fun r =>
  if c then .error e else .ok ((), r)

/-- mirrors :78-84 -/
def framed : Reader Bytes := do
  let length ← u32
  failIf (length.toNat > maxInputBytes) .inputTooLarge
  take length.toNat

/-- A loop that pushes what `x` reads, `n` times. -/
def many {α : Type} (x : Reader α) : Nat → Reader (List α)
  | 0 => return []
  | n + 1 => do
    let a ← x
    let rest ← many x n
    return a :: rest

/-- A list behind a count of one byte, which is refused with `e` before the loop starts. -/
def counted {α : Type} (refused : Nat → Bool) (e : CryptoError) (x : Reader α) :
    Reader (List α) := do
  let count ← u8
  failIf (refused count.toNat) e
  many x count.toNat

/-- A loop over `l` that pushes what `f` reads for each element. -/
def each {α β : Type} (f : α → Reader β) : List α → Reader (List β)
  | [] => return []
  | a :: l => do
    let b ← f a
    let rest ← each f l
    return b :: rest

/-- mirrors :86-88 -/
def isFinished : Reader Bool := fun r => .ok (r.isEmpty, r)

/-- `Reader::new(input)` followed by `x`; what `x` leaves unread is dropped. -/
def parse {α : Type} (x : Reader α) (input : Bytes) : CryptoResult α := do
  let (a, _) ← x.run input
  return a

end Reader

/-! ## Writers -/

/-- mirrors :95-97 -/
def pushU16 (v : UInt16) : Bytes := be 2 v.toNat

/-- mirrors :99-101 -/
def pushU32 (v : UInt32) : Bytes := be 4 v.toNat

/-- mirrors :103-105 -/
def pushU64 (v : UInt64) : Bytes := be 8 v.toNat

/-- `u8::try_from(value)`, with the error its callers map the overflow to. -/
def tryU8 (v : Nat) (e : CryptoError) : CryptoResult UInt8 :=
  if v < 2 ^ 8 then .ok (UInt8.ofNat v) else .error e

def tryU16 (v : Nat) (e : CryptoError) : CryptoResult UInt16 :=
  if v < 2 ^ 16 then .ok (UInt16.ofNat v) else .error e

def tryU32 (v : Nat) (e : CryptoError) : CryptoResult UInt32 :=
  if v < 2 ^ 32 then .ok (UInt32.ofNat v) else .error e

/-- mirrors :107-114 -/
def pushFrame (value : Bytes) : CryptoResult Bytes := do
  let len ← tryU32 value.length .inputTooLarge
  return pushU32 len ++ value

/-- The size check of `reserve` on an empty output (the allocation itself does not fail).
mirrors :116-127 -/
def reserve (additional : Nat) : CryptoResult Unit :=
  failIf (additional > maxInputBytes) .inputTooLarge

variable {e : CryptoError} {n : Nat}

/-! ## Reading back what was written -/

namespace Reader

theorem take_run_append {xs : Bytes} (r : Bytes) (h : xs.length = n) :
    (take n).run (xs ++ r) = .ok (xs, r) := by
  subst h; simp [take, StateT.run]

variable (b : Block n)

@[simp] theorem array_run_append (r : Bytes) : (array n).run (b.bytes ++ r) = .ok (b, r) := by
  have h : n ≤ (b.bytes ++ r).length := by simp
  have ht : Block.ofTake n (b.bytes ++ r) h = b := by
    ext1; simp [Block.ofTake]
  simp [array, StateT.run, ht]

@[simp] theorem array_run_self : (array n).run b.bytes = .ok (b, []) := by
  simpa using array_run_append b []

@[simp] theorem u8_run_cons (b : UInt8) (r : Bytes) : u8.run (b :: r) = .ok (b, r) := rfl

@[simp] theorem boolean_run_zero (r : Bytes) : boolean.run (0 :: r) = .ok (false, r) := rfl

@[simp] theorem boolean_run_one (r : Bytes) : boolean.run (1 :: r) = .ok (true, r) := rfl

@[simp] theorem u16_run_push (v : UInt16) (r : Bytes) : u16.run (pushU16 v ++ r) = .ok (v, r) := by
  have hb : ofBe (be 2 v.toNat) = v.toNat := ofBe_be (by have := v.toNat_lt; omega)
  have := array_run_append ⟨be 2 v.toNat, length_be 2 v.toNat⟩ r
  simp only [u16, StateT.run_bind, pushU16] at this ⊢
  rw [this]; simp [hb]

@[simp] theorem u32_run_push (v : UInt32) (r : Bytes) : u32.run (pushU32 v ++ r) = .ok (v, r) := by
  have hb : ofBe (be 4 v.toNat) = v.toNat := ofBe_be (by have := v.toNat_lt; omega)
  have := array_run_append ⟨be 4 v.toNat, length_be 4 v.toNat⟩ r
  simp only [u32, StateT.run_bind, pushU32] at this ⊢
  rw [this]; simp [hb]

@[simp] theorem u32_run_push_self (v : UInt32) : u32.run (pushU32 v) = .ok (v, []) := by
  simpa using u32_run_push v []

@[simp] theorem isFinished_run (r : Bytes) : isFinished.run r = .ok (r.isEmpty, r) := rfl

variable {r r' : Bytes}

theorem parse_eq_ok {α : Type} {x : Reader α} {input : Bytes} {a : α} :
    parse x input = .ok a ↔ ∃ r, x.run input = .ok (a, r) := by
  unfold parse
  rw [bind_eq_ok]
  constructor
  · rintro ⟨⟨a', r⟩, hx, ha⟩
    cases ha
    exact ⟨r, hx⟩
  · rintro ⟨r, hx⟩
    exact ⟨(a, r), hx, rfl⟩

variable {α β : Type} {x : Reader α} {f : α → Reader β}

theorem run_bind_eq_ok {b : β} : (x >>= f).run r = .ok (b, r') ↔
      ∃ a r1, x.run r = .ok (a, r1) ∧ (f a).run r1 = .ok (b, r') := by
  rw [StateT.run_bind, bind_eq_ok]
  exact Prod.exists

@[simp] theorem failIf_run_eq_ok {c : Bool} {u : Unit} :
    (failIf c e).run r = .ok (u, r') ↔ c = false ∧ r' = r := by
  change (if c then Except.error e else Except.ok ((), r)) = _ ↔ _
  cases c <;> simp [eq_comm]

theorem run_bind_of {r1 : Bytes} {a : α}
    (h : x.run r = .ok (a, r1)) : (x >>= f).run r = (f a).run r1 := by
  rw [StateT.run_bind, h, ok_bind]

theorem failIf_run_of {c : Bool} (h : c = false) : (failIf c e).run r = .ok ((), r) := by
  subst h; rfl

theorem failIf_run (c : Bool) (e : CryptoError) (r : Bytes) :
    (failIf c e).run r = if c then .error e else .ok ((), r) := rfl

theorem finished_run_eq_ok {α : Type} {x : Reader α} {a : α} :
    (isFinished >>= fun finished => failIf (!finished) e >>= fun _ => x).run r = .ok (a, r') ↔
      r = [] ∧ x.run [] = .ok (a, r') := by
  cases r with
  | nil => exact ⟨fun h => ⟨rfl, h⟩, fun h => h.2⟩
  | cons b r =>
    constructor
    · intro h
      cases h
    · rintro ⟨h, -⟩
      cases h

theorem framed_run {b f : Bytes} (h : pushFrame b = .ok f) (hb : b.length ≤ maxInputBytes)
    (r : Bytes) : framed.run (f ++ r) = .ok (b, r) := by
  have hlt : b.length < 2 ^ 32 := by unfold maxInputBytes at hb; omega
  obtain ⟨len, hlen, rfl⟩ : ∃ len, tryU32 b.length .inputTooLarge = .ok len ∧
      f = pushU32 len ++ b := by
    obtain ⟨len, hl, hf⟩ := bind_eq_ok.mp h
    cases hf
    exact ⟨len, hl, rfl⟩
  have hl : len.toNat = b.length := by
    rw [tryU32, if_pos hlt] at hlen
    cases hlen
    exact UInt32.toNat_ofNat_of_lt' hlt
  have hc : decide (len.toNat > maxInputBytes) = false := by simpa [hl] using hb
  have htake := take_run_append r hl.symm
  rw [List.append_assoc, framed, StateT.run_bind, u32_run_push, ok_bind, StateT.run_bind,
    failIf_run, hc, if_neg (by simp), ok_bind, htake]

theorem many_run {α : Type} {x : Reader α} (enc : α → Bytes) {l : List α}
    (h : ∀ a ∈ l, ∀ r, x.run (enc a ++ r) = .ok (a, r)) (r : Bytes) :
    (many x l.length).run (l.flatMap enc ++ r) = .ok (l, r) := by
  induction l with
  | nil => rfl
  | cons a l ih =>
    have ha := h a List.mem_cons_self (l.flatMap enc ++ r)
    have hl := ih fun b hb => h b (List.mem_cons_of_mem a hb)
    simp only [List.length_cons, many, List.flatMap_cons, List.append_assoc, StateT.run_bind, ha,
      ok_bind, hl]
    rfl

theorem many_eq_ok {α : Type} {x : Reader α} {Q : α → Prop}
    (hx : ∀ r a r', x.run r = .ok (a, r') → Q a) {l : List α}
    (h : (many x n).run r = .ok (l, r')) : l.length = n ∧ ∀ a ∈ l, Q a := by
  induction n generalizing r l with
  | zero => cases h; simp
  | succ n ih =>
    obtain ⟨a, r1, ha, h⟩ := run_bind_eq_ok.mp h
    obtain ⟨rest, r2, hrest, h⟩ := run_bind_eq_ok.mp h
    cases h
    obtain ⟨hlen, hall⟩ := ih hrest
    exact ⟨by simp [hlen], List.forall_mem_cons.mpr ⟨hx _ _ _ ha, hall⟩⟩

theorem each_run (part : β → α) (enc : β → Bytes) {l : List β}
    (h : ∀ b ∈ l, ∀ r, (f (part b)).run (enc b ++ r) = .ok (b, r)) (r : Bytes) :
    (each f (l.map part)).run (l.flatMap enc ++ r) = .ok (l, r) := by
  induction l with
  | nil => rfl
  | cons b l ih =>
    have hb := h b List.mem_cons_self (l.flatMap enc ++ r)
    have hl := ih fun c hc => h c (List.mem_cons_of_mem b hc)
    simp only [List.map_cons, each, List.flatMap_cons, List.append_assoc, StateT.run_bind, hb,
      ok_bind, hl]
    rfl

theorem each_eq_ok {A : α → Prop} {Q : β → Prop}
    (hf : ∀ a, A a → ∀ r b r', (f a).run r = .ok (b, r') → Q b) {l : List α} (hl : ∀ a ∈ l, A a)
    {bs : List β} (h : (each f l).run r = .ok (bs, r')) :
    bs.length = l.length ∧ ∀ b ∈ bs, Q b := by
  induction l generalizing r bs with
  | nil => cases h; simp
  | cons a l ih =>
    obtain ⟨b, r1, hb, h⟩ := run_bind_eq_ok.mp h
    obtain ⟨rest, r2, hrest, h⟩ := run_bind_eq_ok.mp h
    cases h
    obtain ⟨ha, hl⟩ := List.forall_mem_cons.mp hl
    obtain ⟨hlen, hall⟩ := ih hl hrest
    exact ⟨by simp [hlen], List.forall_mem_cons.mpr ⟨hf a ha _ _ _ hb, hall⟩⟩

end Reader

@[simp] theorem length_pushU16 (v : UInt16) : (pushU16 v).length = 2 := length_be 2 _

variable {v : Nat}

@[simp] theorem length_pushU32 (v : UInt32) : (pushU32 v).length = 4 := length_be 4 _

variable {x : UInt16}

theorem tryU16_eq_ok : tryU16 v e = .ok x ↔ v < 2 ^ 16 ∧ x = UInt16.ofNat v := by
  unfold tryU16
  split <;> rename_i h <;> simp only [Except.ok.injEq, reduceCtorEq, h, true_and, false_and]
  exact eq_comm

theorem tryU16_of_lt (h : v < 2 ^ 16) (e : CryptoError) :
    tryU16 v e = .ok (UInt16.ofNat v) := if_pos h

theorem tryU32_eq_ok {x : UInt32} : tryU32 v e = .ok x ↔ v < 2 ^ 32 ∧ x = UInt32.ofNat v := by
  unfold tryU32
  split <;> rename_i h <;> simp only [Except.ok.injEq, reduceCtorEq, h, true_and, false_and]
  exact eq_comm

theorem tryU32_of_lt (h : v < 2 ^ 32) (e : CryptoError) :
    tryU32 v e = .ok (UInt32.ofNat v) := if_pos h

@[simp] theorem length_pushU64 (v : UInt64) : (pushU64 v).length = 8 := length_be 8 _

theorem tryU8_eq_ok {x : UInt8} : tryU8 v e = .ok x ↔ v = x.toNat := by
  unfold tryU8
  split
  · next h => rw [Except.ok.injEq, ← UInt8.toNat_inj, UInt8.toNat_ofNat_of_lt' h]
  · next h =>
    constructor
    · intro hok
      cases hok
    · rintro rfl
      exact absurd x.toNat_lt h

theorem tryU8_of_lt (h : v < 2 ^ 8) (e : CryptoError) : tryU8 v e = .ok (UInt8.ofNat v) := if_pos h

theorem pushU32_ofNat (h : v < 2 ^ 32) : pushU32 (UInt32.ofNat v) = be 4 v := by
  rw [pushU32, UInt32.toNat_ofNat_of_lt' h]

theorem tryU16_eq_ok' : tryU16 v e = .ok x ↔ v = x.toNat := by
  rw [tryU16_eq_ok]
  constructor
  · rintro ⟨h, rfl⟩
    exact (UInt16.toNat_ofNat_of_lt' h).symm
  · rintro rfl
    exact ⟨x.toNat_lt, UInt16.ofNat_toNat.symm⟩

theorem tryU32_eq_ok' {x : UInt32} : tryU32 v e = .ok x ↔ v = x.toNat := by
  rw [tryU32_eq_ok]
  constructor
  · rintro ⟨h, rfl⟩
    exact (UInt32.toNat_ofNat_of_lt' h).symm
  · rintro rfl
    exact ⟨x.toNat_lt, UInt32.ofNat_toNat.symm⟩

theorem pushFrame_of_lt {b : Bytes} (h : b.length < 2 ^ 32) :
    pushFrame b = .ok (be 4 b.length ++ b) := by
  rw [pushFrame, tryU32_of_lt h]
  simp only [ok_bind, pure_eq_ok]
  rw [pushU32_ofNat h]

theorem pushFrame_eq_ok {b f : Bytes} :
    pushFrame b = .ok f ↔ b.length < 2 ^ 32 ∧ f = be 4 b.length ++ b := by
  constructor
  · intro h
    obtain ⟨len, hlen, _⟩ := bind_eq_ok.mp h
    have hlt := (tryU32_eq_ok.mp hlen).1
    rw [pushFrame_of_lt hlt] at h
    exact ⟨hlt, (Except.ok.inj h).symm⟩
  · rintro ⟨hlt, rfl⟩
    exact pushFrame_of_lt hlt

/-! ## What a reader accepts -/

namespace Reader

theorem take_exact (n : Nat) : Exact (take n) (fun b => b.length = n) fun b => b :=
  takeFront_exact CryptoError.malformedInput n

theorem array_exact (n : Nat) : Exact (array n) (fun _ => True) Block.bytes := by
  intro input b rest
  constructor
  · intro h
    change (if hn : n ≤ input.length then Except.ok (Block.ofTake n input hn, input.drop n)
      else Except.error CryptoError.malformedInput) = _ at h
    split at h
    · cases h
      exact ⟨trivial, (List.take_append_drop n input).symm⟩
    · cases h
  · rintro ⟨-, rfl⟩
    exact array_run_append b rest

theorem u8_exact : Exact u8 (fun _ => True) fun b => [b] := by
  intro input b rest
  constructor
  · intro h
    cases input with
    | nil => cases h
    | cons x input =>
      cases h
      exact ⟨trivial, rfl⟩
  · rintro ⟨-, rfl⟩
    rfl

variable {α : Type}

theorem lift_exact (x : CryptoResult α) :
    Exact (liftM x : Reader α) (fun a => x = .ok a) fun _ => [] := by
  intro input a rest
  cases x with
  | error e => simp
  | ok b => simp

theorem word_exact {k : Nat} {ofNat : Nat → α} {toNat : α → Nat}
    (hof : ∀ v < 256 ^ k, toNat (ofNat v) = v) (hto : ∀ a, ofNat (toNat a) = a)
    (hlt : ∀ a, toNat a < 256 ^ k) :
    Exact (array k >>= fun b => pure (ofNat (ofBe b.bytes))) (fun _ => True)
      fun a => be k (toNat a) := by
  intro input a rest
  rw [Exact.bind_run]
  dsimp only
  constructor
  · rintro ⟨b, mid, hread, hret⟩
    obtain ⟨-, rfl⟩ := (array_exact k).read hread
    obtain ⟨rfl, rfl⟩ := Exact.pure_run.mp hret
    have hb := ofBe_lt b.bytes
    have hback := be_ofBe b.bytes
    rw [b.length_bytes] at hb hback
    rw [hof _ hb, hback]
    exact ⟨trivial, rfl⟩
  · rintro ⟨-, rfl⟩
    refine ⟨⟨be k (toNat a), length_be k _⟩, rest, array_run_append ⟨_, length_be k _⟩ rest,
      Exact.pure_run.mpr ⟨?_, rfl⟩⟩
    rw [ofBe_be (hlt a), hto]

theorem u16_exact : Exact u16 (fun _ => True) pushU16 :=
  word_exact (fun _ h => UInt16.toNat_ofNat_of_lt' h) (fun _ => UInt16.ofNat_toNat)
    fun a => a.toNat_lt

theorem u32_exact : Exact u32 (fun _ => True) pushU32 :=
  word_exact (fun _ h => UInt32.toNat_ofNat_of_lt' h) (fun _ => UInt32.ofNat_toNat)
    fun a => a.toNat_lt

theorem u64_exact : Exact u64 (fun _ => True) pushU64 :=
  word_exact (fun _ h => UInt64.toNat_ofNat_of_lt' h) (fun _ => UInt64.ofNat_toNat)
    fun a => a.toNat_lt

theorem boolean_exact : Exact boolean (fun _ => True) fun b => [if b then 1 else 0] := by
  intro input b rest
  constructor
  · intro h
    obtain ⟨x, mid, hread, hrest⟩ := run_bind_eq_ok.mp h
    obtain ⟨-, rfl⟩ := u8_exact.read hread
    split at hrest
    · next hx =>
      cases hrest
      exact ⟨trivial, by rw [hx]; rfl⟩
    · split at hrest
      · next hx =>
        cases hrest
        exact ⟨trivial, by rw [hx]; rfl⟩
      · cases hrest
  · rintro ⟨-, rfl⟩
    cases b <;> rfl

theorem framed_exact :
    Exact framed (fun b => b.length ≤ maxInputBytes) fun b => be 4 b.length ++ b := by
  intro input b rest
  constructor
  · intro h
    obtain ⟨len, mid, hread, hrest⟩ := run_bind_eq_ok.mp h
    obtain ⟨-, rfl⟩ := u32_exact.read hread
    obtain ⟨_, _, hcheck, htake⟩ := run_bind_eq_ok.mp hrest
    obtain ⟨hle, rfl⟩ := failIf_run_eq_ok.mp hcheck
    obtain ⟨hlen, rfl⟩ := (take_exact _).read htake
    refine ⟨?_, ?_⟩
    · show b.length ≤ maxInputBytes
      rw [hlen]
      simpa using hle
    · show pushU32 len ++ (b ++ rest) = (be 4 b.length ++ b) ++ rest
      rw [hlen, List.append_assoc, pushU32]
  · rintro ⟨hle, rfl⟩
    exact framed_run (pushFrame_of_lt (by unfold maxInputBytes at hle; omega)) hle rest

variable {x : Reader α} {P : α → Prop} {w : α → Bytes}

theorem many_exact (hx : Exact x P w) (n : Nat) :
    Exact (many x n) (fun l => l.length = n ∧ ∀ a ∈ l, P a) fun l => l.flatMap w := by
  intro input l rest
  constructor
  · intro h
    induction n generalizing input l with
    | zero =>
      obtain ⟨rfl, rfl⟩ := Prod.mk.inj (Except.ok.inj h)
      simp
    | succ n ih =>
      obtain ⟨a, mid, hread, hrest⟩ := run_bind_eq_ok.mp h
      obtain ⟨ha, rfl⟩ := (hx _ _ _).mp hread
      obtain ⟨l', mid', hmany, hend⟩ := run_bind_eq_ok.mp hrest
      obtain ⟨rfl, rfl⟩ := Prod.mk.inj (Except.ok.inj hend)
      obtain ⟨⟨rfl, hl⟩, rfl⟩ := ih _ _ hmany
      refine ⟨⟨rfl, List.forall_mem_cons.mpr ⟨ha, hl⟩⟩, ?_⟩
      show w a ++ (l'.flatMap w ++ mid') = (a :: l').flatMap w ++ mid'
      rw [List.flatMap_cons, List.append_assoc]
  · rintro ⟨⟨rfl, hl⟩, rfl⟩
    exact many_run w (fun a ha r => hx.run (hl a ha) r) rest

theorem counted_exact (hx : Exact x P w) (refused : Nat → Bool) (e : CryptoError) :
    Exact (counted refused e x)
      (fun l => l.length < 256 ∧ refused l.length = false ∧ ∀ a ∈ l, P a)
      fun l => [UInt8.ofNat l.length] ++ l.flatMap w := by
  refine .of fun input l rest => ?_
  rw [counted, Exact.bind_run]
  constructor
  · rintro ⟨count, mid, hcount, hread⟩
    obtain ⟨-, rfl⟩ := u8_exact.read hcount
    obtain ⟨_, _, hcheck, hmany⟩ := Exact.bind_run.mp hread
    obtain ⟨hpass, rfl⟩ := failIf_run_eq_ok.mp hcheck
    obtain ⟨⟨hlength, hall⟩, rfl⟩ := (many_exact hx _).read hmany
    rw [hlength, UInt8.ofNat_toNat]
    exact ⟨⟨count.toNat_lt, hpass, hall⟩, rfl⟩
  · rintro ⟨⟨hlength, hpass, hall⟩, rfl⟩
    have hcount := UInt8.toNat_ofNat_of_lt' hlength
    refine ⟨UInt8.ofNat l.length, l.flatMap w ++ rest, rfl, ?_⟩
    rw [hcount, run_bind_of (failIf_run_of hpass)]
    exact (many_exact hx _).run ⟨rfl, hall⟩ rest

/-! ### Records

A reader of a record is taken apart by `Exact.bind_run`, and each field is read off by the equation
of its reader. -/

section Equations

variable {input rest : Bytes}

@[simp] theorem take_run_eq_ok {b : Bytes} :
    (take n).run input = .ok (b, rest) ↔ b.length = n ∧ input = b ++ rest :=
  take_exact n _ _ _

@[simp] theorem array_run_eq_ok {b : Block n} :
    (array n).run input = .ok (b, rest) ↔ input = b.bytes ++ rest :=
  (array_exact n).iff

@[simp] theorem u8_run_eq_ok {v : UInt8} : u8.run input = .ok (v, rest) ↔ input = v :: rest :=
  u8_exact.iff

@[simp] theorem u16_run_eq_ok {v : UInt16} :
    u16.run input = .ok (v, rest) ↔ input = pushU16 v ++ rest :=
  u16_exact.iff

@[simp] theorem u32_run_eq_ok {v : UInt32} :
    u32.run input = .ok (v, rest) ↔ input = pushU32 v ++ rest :=
  u32_exact.iff

@[simp] theorem u64_run_eq_ok {v : UInt64} :
    u64.run input = .ok (v, rest) ↔ input = pushU64 v ++ rest :=
  u64_exact.iff

@[simp] theorem boolean_run_eq_ok {b : Bool} :
    boolean.run input = .ok (b, rest) ↔ input = (if b then 1 else 0) :: rest :=
  boolean_exact.iff

@[simp] theorem framed_run_eq_ok {b : Bytes} : framed.run input = .ok (b, rest) ↔
    b.length ≤ maxInputBytes ∧ input = (be 4 b.length ++ b) ++ rest :=
  framed_exact _ _ _

end Equations

theorem parse_finished_eq_ok (hx : Exact x P w) {input : Bytes} {a : α} :
    parse (do
      let a ← x
      let finished ← isFinished
      failIf (!finished) e
      return a) input = .ok a ↔ P a ∧ input = w a := by
  rw [parse_eq_ok]
  constructor
  · rintro ⟨rest, hread⟩
    obtain ⟨a', mid, hvalue, hend⟩ := run_bind_eq_ok.mp hread
    obtain ⟨ha, rfl⟩ := hx.read hvalue
    obtain ⟨rfl, hret⟩ := finished_run_eq_ok.mp hend
    cases hret
    exact ⟨ha, List.append_nil _⟩
  · rintro ⟨ha, rfl⟩
    have hvalue := hx.run ha []
    rw [List.append_nil] at hvalue
    exact ⟨[], run_bind_eq_ok.mpr ⟨a, [], hvalue, finished_run_eq_ok.mpr ⟨rfl, rfl⟩⟩⟩

end Reader
end CommPlatform.L1
