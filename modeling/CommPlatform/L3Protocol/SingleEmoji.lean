import CommPlatform.L3Protocol.ApplicationEvent

/-!
# What a reaction may be

`is_single_emoji` (`application.rs:1554-1591`) is a scanner with two flags
behind two early returns; here the language it accepts is given as a grammar.
-/
namespace CommPlatform.Application

open CommPlatform.Core

/-- `B`. The modifiers lie inside the ranges of the bases. -/
def IsBase (c : Nat) : Prop := isEmojiBase c = true ∧ isEmojiModifier c = false

/-- `M` -/
def IsMark (c : Nat) : Prop := isEmojiModifier c = true ∨ c = 0xfe0f

/-- `B M* (U+200D B M*)*` -/
inductive Joined : List Nat → Prop
  | last {b : Nat} {marks : List Nat} (hb : IsBase b) (hm : ∀ m ∈ marks, IsMark m) :
      Joined (b :: marks)
  | join {b : Nat} {marks rest : List Nat} (hb : IsBase b) (hm : ∀ m ∈ marks, IsMark m)
      (hr : Joined rest) : Joined (b :: marks ++ 0x200d :: rest)

/-- `'0'..='9' | '#' | '*'` -/
def isKeycapBase (c : Nat) : Bool := (0x30 ≤ c && c ≤ 0x39) || c == 0x23 || c == 0x2a

inductive SingleEmoji : List Nat → Prop
  | flag {a b : Nat} (ha : isRegionalIndicator a) (hb : isRegionalIndicator b) : SingleEmoji [a, b]
  | keycap {c n : Nat} (hc : isKeycapBase c) :
      SingleEmoji (c :: List.replicate n 0xfe0f ++ [0x20e3])
  | joined {scalars : List Nat} (h : Joined scalars) : SingleEmoji scalars

/-- `scalars[start..stop]`, `none` where it panics. -/
def slice? (scalars : List Nat) (start stop : Nat) : Option (List Nat) :=
  if start ≤ stop ∧ stop ≤ scalars.length then some ((scalars.take stop).drop start) else none

/-- mirrors application.rs:1563-1566, with the panic of the slice -/
def keycap? (scalars : List Nat) : Option Bool :=
  if scalars.head?.any isKeycapBase then
    (slice? scalars 1 (scalars.length - 1)).map (·.all (· == 0xfe0f))
  else some false

def isSingleEmoji? (value : Text) : Option Bool :=
  let scalars := value.chars
  if scalars.isEmpty || value.bytes.length > maxEmojiBytes then some false
  else if scalars.length == 2 && scalars.all isRegionalIndicator then some true
  else if scalars.getLast? = some 0x20e3 then keycap? scalars
  else some (emojiLoop true false scalars)

variable {rest : List Nat}

theorem emojiLoop_base {b : Nat} {saw : Bool} (hb : IsBase b) :
    emojiLoop true saw (b :: rest) = emojiLoop false true rest := by
  have hj : b ≠ 0x200d := by rintro rfl; exact absurd hb.1 (by decide)
  have hv : b ≠ 0xfe0f := by rintro rfl; exact absurd hb.1 (by decide)
  simp [emojiLoop, hj, hv, hb.1, hb.2]

theorem emojiLoop_marks {marks : List Nat} (hm : ∀ m ∈ marks, IsMark m) :
    emojiLoop false true (marks ++ rest) = emojiLoop false true rest := by
  induction marks with
  | nil => rfl
  | cons m marks ih =>
    obtain ⟨h, hm⟩ := List.forall_mem_cons.mp hm
    have hj : m ≠ 0x200d := by rintro rfl; revert h; simp [IsMark, isEmojiModifier]
    have h : isEmojiModifier m = true ∨ m = 0xfe0f := h
    simp [emojiLoop, hj, h, ih hm]

variable {l : List Nat}

theorem Joined.scans (h : Joined l) (saw : Bool) : emojiLoop true saw l = true := by
  induction h generalizing saw with
  | @last b marks hb hm =>
    rw [emojiLoop_base hb, ← List.append_nil marks, emojiLoop_marks hm]
    rfl
  | join hb hm _ ih =>
    rw [List.cons_append, emojiLoop_base hb, emojiLoop_marks hm]
    simpa [emojiLoop] using ih true

/-- Both phases at once: a joiner turns the second into the first. -/
theorem scan_joined : (∀ saw, emojiLoop true saw l = true → Joined l) ∧
      ∀ b marks, IsBase b → (∀ m ∈ marks, IsMark m) → emojiLoop false true l = true →
        Joined (b :: marks ++ l) := by
  induction l with
  | nil => exact ⟨by simp [emojiLoop], fun b marks hb hm _ => by simpa using Joined.last hb hm⟩
  | cons c rest ih =>
    refine ⟨fun saw h => ?_, fun b marks hb hm h => ?_⟩
    · simp only [emojiLoop, Bool.true_or, if_true, Bool.not_true, Bool.false_and] at h
      split_ifs at h with hj hc hb
      exact ih.2 c [] ⟨hb, by simp_all⟩ (by simp) h
    · simp only [emojiLoop] at h
      split_ifs at h with hj _ hc
      · exact hj ▸ .join hb hm (ih.1 _ h)
      · have hc : ∀ m ∈ [c], IsMark m := by simpa [IsMark] using hc
        simpa using ih.2 b (marks ++ [c]) hb (List.forall_mem_append.mpr ⟨hm, hc⟩) h
      all_goals simp_all

theorem emojiLoop_iff : emojiLoop true false l = true ↔ Joined l :=
  ⟨scan_joined.1 _, fun h => h.scans _⟩

theorem Joined.noKeycap (h : Joined l) : 0x20e3 ∉ l := by
  have base : ¬ IsBase 0x20e3 := by simp [IsBase, isEmojiBase]
  have mark : ¬ IsMark 0x20e3 := by simp [IsMark, isEmojiModifier]
  induction h with
  | last hb hm => grind
  | join hb hm _ ih => grind

variable {c : Nat}

/-- The first scalar is tested before the slice is taken, and U+20E3 alone fails the test. -/
theorem keycap_split (hl : (c :: rest).getLast? = some 0x20e3)
    (hc : isKeycapBase c = true) : ∃ marks, rest = marks ++ [0x20e3] := by
  obtain ⟨_ | ⟨d, marks⟩, h⟩ := List.getLast?_eq_some_iff.mp hl
  · exact absurd ((List.cons.inj h).1 ▸ hc) (by decide)
  · exact ⟨marks, (List.cons.inj h).2⟩

theorem keycap?_eq (hl : (c :: rest).getLast? = some 0x20e3) :
    keycap? (c :: rest) = some (isKeycapBase c && rest.dropLast.all (· == 0xfe0f)) := by
  cases hc : isKeycapBase c with
  | false => simp [keycap?, hc]
  | true =>
    obtain ⟨marks, rfl⟩ := keycap_split hl hc
    simp [keycap?, slice?, hc]

theorem keycap_iff (hl : (c :: rest).getLast? = some 0x20e3) :
    (isKeycapBase c && rest.dropLast.all (· == 0xfe0f)) = true ↔ SingleEmoji (c :: rest) := by
  constructor
  · intro h
    obtain ⟨hc, hm⟩ := Bool.and_eq_true_iff.mp h
    obtain ⟨marks, rfl⟩ := keycap_split hl hc
    rw [List.eq_replicate_of_mem (by simpa using hm : ∀ m ∈ marks, m = 0xfe0f)]
    exact .keycap hc
  · intro h
    cases h with
    | flag _ hb => simp_all [isRegionalIndicator]
    | keycap hc => simp [hc]
    | joined h => exact absurd (List.mem_of_getLast? hl) h.noKeycap

theorem single_emoji_iff (value : Text) : isSingleEmoji? value = some (isSingleEmoji value) ∧
      (isSingleEmoji value = true ↔
        value.bytes.length ≤ maxEmojiBytes ∧ SingleEmoji value.chars) := by
  unfold isSingleEmoji? isSingleEmoji
  rcases value.chars with _ | ⟨c, rest⟩
  · have : ¬ SingleEmoji [] := by rintro (_ | _ | ⟨⟨⟩⟩)
    simpa using fun _ => this
  simp only [List.isEmpty_cons, Bool.false_or, decide_eq_true_eq]
  split_ifs with he hf hl
  · simp [he]
  · obtain ⟨d, rfl⟩ : ∃ d, rest = [d] := List.length_eq_one_iff.mp (by simp_all)
    have : SingleEmoji [c, d] := .flag (by simp_all) (by simp_all)
    simp_all
  · exact ⟨keycap?_eq hl, (keycap_iff hl).trans (and_iff_right (not_lt.mp he)).symm⟩
  · rw [emojiLoop_iff, and_iff_right (not_lt.mp he)]
    refine ⟨rfl, .joined, fun h => ?_⟩
    cases h with
    | flag ha hb => simp [ha, hb] at hf
    | keycap hc => exact absurd (by simp [List.getLast?_cons]) hl
    | joined h => exact h

end CommPlatform.Application
