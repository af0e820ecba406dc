import CommPlatform.Core.Outcome

/-!
# Readers that are the inverse of a writer

A reader takes a value off the front of its input. `Exact x P write` says
that `x` succeeds exactly on what `write` puts in front of the input, for
the values `P` admits: both that the reader gives back what was written, and
that what it accepts is what the writer would have written.

* `Exact.bind_run`, `Exact.pure_run`: a record is read field by field.
* `Exact.inj`: what a writer with a reader writes says what was written.
* `takeFront_exact`: the first `n` symbols, which every other reader rests on.
-/
namespace CommPlatform.Core

variable {σ ε α β : Type}

def Exact (x : StateT (List σ) (Except ε) α) (P : α → Prop) (write : α → List σ) : Prop :=
  ∀ input a rest, x.run input = .ok (a, rest) ↔ P a ∧ input = write a ++ rest

namespace Exact

variable {x : StateT (List σ) (Except ε) α} {f : α → StateT (List σ) (Except ε) β}
  {P : α → Prop} {w : α → List σ} {v : β → List σ}

theorem of (h : ∀ input a rest, x.run input = .ok (a, rest) ↔ P a ∧ input = w a ++ rest) :
    Exact x P w := h

variable {input rest : List σ} {a : α}

theorem read (h : Exact x P w) (hread : x.run input = .ok (a, rest)) : P a ∧ input = w a ++ rest :=
  (h _ _ _).mp hread

theorem run (h : Exact x P w) (ha : P a) (rest : List σ) : x.run (w a ++ rest) = .ok (a, rest) :=
  (h _ _ _).mpr ⟨ha, rfl⟩

theorem iff (h : Exact x (fun _ => True) w) : x.run input = .ok (a, rest) ↔ input = w a ++ rest :=
  (h _ _ _).trans (and_iff_right trivial)

theorem congr {P' : α → Prop} {w' : α → List σ} (h : Exact x P w) (hP : ∀ a, P a ↔ P' a)
    (hw : ∀ a, P' a → w a = w' a) : Exact x P' w' := by
  intro input a rest
  rw [h, hP]
  refine and_congr_right fun ha => ?_
  rw [hw a ha]

theorem inj (h : Exact x P w) {a' : α} {rest rest' : List σ} (ha : P a) (ha' : P a')
    (heq : w a ++ rest = w a' ++ rest') : a = a' ∧ rest = rest' := by
  have hread := h.run ha rest
  rw [heq, h.run ha' rest'] at hread
  cases hread
  exact ⟨rfl, rfl⟩

theorem bind_run {b : β} : (x >>= f).run input = .ok (b, rest) ↔
      ∃ a mid, x.run input = .ok (a, mid) ∧ (f a).run mid = .ok (b, rest) := by
  rw [StateT.run_bind, bind_eq_ok]
  exact Prod.exists

theorem pure_run {a b : β} :
    (pure a : StateT (List σ) (Except ε) β).run input = .ok (b, rest) ↔ b = a ∧ input = rest := by
  change Except.ok (a, input) = Except.ok (b, rest) ↔ _
  rw [Except.ok.injEq, Prod.mk.injEq, @eq_comm _ a]

variable {c : α → β}

theorem wrap (hx : Exact x P w) (hv : ∀ a, v (c a) = w a) :
    Exact (x >>= fun a => pure (c a)) (fun b => ∃ a, b = c a ∧ P a) v := by
  intro input b rest
  rw [bind_run]
  constructor
  · rintro ⟨a, mid, hread, hret⟩
    obtain ⟨ha, rfl⟩ := (hx _ _ _).mp hread
    cases hret
    exact ⟨⟨a, rfl, ha⟩, by rw [hv]⟩
  · rintro ⟨⟨a, rfl, ha⟩, rfl⟩
    exact ⟨a, rest, (hx _ _ _).mpr ⟨ha, by rw [hv]⟩, rfl⟩

/-- A branch of a reader that reads one of several shapes. -/
theorem branch {R : β → Prop} (hx : Exact x P fun a => v (c a))
    (hR : ∀ b, R b ↔ ∃ a, b = c a ∧ P a) :
    Exact (x >>= fun a => pure (c a)) R v :=
  (hx.wrap fun _ => rfl).congr (fun b => (hR b).symm) fun _ _ => rfl

/-- A branch whose tag `K` belongs to one constructor. -/
theorem shape {K R : β → Prop} (hx : Exact x (fun a => R (c a)) fun a => v (c a))
    (hK : ∀ b, K b ↔ ∃ a, b = c a) :
    Exact (x >>= fun a => pure (c a)) (fun b => K b ∧ R b) v := by
  refine branch hx fun b => ?_
  rw [hK b]
  constructor
  · rintro ⟨⟨a, rfl⟩, ha⟩
    exact ⟨a, rfl, ha⟩
  · rintro ⟨a, rfl, ha⟩
    exact ⟨⟨a, rfl⟩, ha⟩

theorem failed {e : ε} (h : ∀ a, ¬ P a) : Exact (throw e : StateT (List σ) (Except ε) α) P w := by
  intro input a rest
  refine ⟨fun hread => ?_, fun hP => absurd hP.1 (h a)⟩
  cases hread

end Exact

def takeFront (e : ε) (n : Nat) : StateT (List σ) (Except ε) (List σ) := fun r =>
  if n ≤ r.length then .ok (r.take n, r.drop n) else .error e

theorem takeFront_exact (e : ε) (n : Nat) :
    Exact (takeFront e n) (fun b : List σ => b.length = n) fun b => b := by
  intro input b rest
  change (if n ≤ input.length then Except.ok (input.take n, input.drop n)
    else Except.error e) = _ ↔ _
  constructor
  · intro h
    split at h
    · next hn =>
      cases h
      exact ⟨List.length_take_of_le hn, (List.take_append_drop n input).symm⟩
    · cases h
  · rintro ⟨rfl, rfl⟩
    simp

/-! ## Readers that keep a part -/

/-- As `Exact`, for a reader that keeps only `f` of what was written. -/
def Views {γ : Type} (x : StateT (List σ) (Except ε) γ) (P : α → Prop) (write : α → List σ)
    (f : α → γ) : Prop :=
  ∀ input c rest, x.run input = .ok (c, rest) ↔ ∃ a, P a ∧ f a = c ∧ input = write a ++ rest

def many {γ : Type} (x : StateT (List σ) (Except ε) γ) : Nat → StateT (List σ) (Except ε) (List γ)
  | 0 => pure []
  | n + 1 => do
    let c ← x
    let rest ← many x n
    return c :: rest

variable {P : α → Prop} {w : α → List σ}

theorem Views.many {γ : Type} {x : StateT (List σ) (Except ε) γ}
    {f : α → γ} (h : Views x P w f) (n : Nat) :
    Views (many x n) (fun l => l.length = n ∧ ∀ a ∈ l, P a) (List.flatMap w) (List.map f) := by
  induction n with
  | zero =>
    intro input l rest
    constructor
    · intro heq
      cases heq
      exact ⟨[], ⟨rfl, nofun⟩, rfl, rfl⟩
    · rintro ⟨l', ⟨hlength, -⟩, rfl, rfl⟩
      obtain rfl := List.length_eq_zero_iff.mp hlength
      rfl
  | succ n ih =>
    intro input l rest
    rw [Core.many, Exact.bind_run]
    constructor
    · rintro ⟨c, mid, hfirst, hrest⟩
      obtain ⟨l', mid', hmany, hret⟩ := Exact.bind_run.mp hrest
      cases hret
      obtain ⟨a, ha, rfl, rfl⟩ := (h _ _ _).mp hfirst
      obtain ⟨as, ⟨hlength, has⟩, rfl, rfl⟩ := (ih _ _ _).mp hmany
      refine ⟨a :: as, ⟨by rw [List.length_cons, hlength], ?_⟩, rfl, ?_⟩
      · intro b hb
        obtain rfl | hb := List.mem_cons.mp hb
        · exact ha
        · exact has b hb
      · rw [List.flatMap_cons, List.append_assoc]
    · rintro ⟨as, ⟨hlength, has⟩, rfl, rfl⟩
      obtain ⟨a, as, rfl⟩ := List.exists_cons_of_length_eq_add_one hlength
      refine ⟨f a, as.flatMap w ++ rest,
        (h _ _ _).mpr ⟨a, has a List.mem_cons_self, rfl, ?_⟩, Exact.bind_run.mpr ⟨as.map f, rest,
          (ih _ _ _).mpr ⟨as, ⟨by simpa using hlength, fun b hb =>
            has b (List.mem_cons_of_mem _ hb)⟩, rfl, rfl⟩, rfl⟩⟩
      rw [List.flatMap_cons, List.append_assoc]

/-! ## Unambiguous writers -/

/-- What is written tells where it ends and of which value it is. -/
def Unambiguous (P : α → Prop) (w : α → List σ) : Prop :=
  ∀ a a' rest rest', P a → P a' → w a ++ rest = w a' ++ rest' → a = a' ∧ rest = rest'

theorem Unambiguous.list (h : Unambiguous P w) :
    ∀ l l' : List α, l.length = l'.length → (∀ a ∈ l, P a) → (∀ a ∈ l', P a) →
      ∀ rest rest', l.flatMap w ++ rest = l'.flatMap w ++ rest' → l = l' ∧ rest = rest'
  | [], [], _, _, _, _, _, heq => ⟨rfl, heq⟩
  | a :: l, a' :: l', hlength, hl, hl', rest, rest', heq => by
    rw [List.flatMap_cons, List.flatMap_cons, List.append_assoc, List.append_assoc] at heq
    obtain ⟨rfl, htail⟩ := h _ _ _ _ (hl a (List.mem_cons_self ..))
      (hl' a' (List.mem_cons_self ..)) heq
    obtain ⟨rfl, rfl⟩ := list h l l' (Nat.succ.inj hlength)
      (fun b hb => hl b (List.mem_cons_of_mem _ hb)) (fun b hb => hl' b (List.mem_cons_of_mem _ hb))
      rest rest' htail
    exact ⟨rfl, rfl⟩

end CommPlatform.Core
