import Mathlib.Data.List.Forall2
import Mathlib.Data.Option.Basic
import Mathlib.Logic.Basic

/-!
# Fallible computations

`Except ε` as the result type of a program that stops at its first error.
`failIf` is an early return, `okOr` the conversion of a missing value into
an error. The lemmas take a successful computation apart one step at a
time (`bind_eq_ok`) and put it together again (`ok_bind`), so that no proof
about a program has to unfold the monad.
-/
namespace CommPlatform.Core

variable {ε α β : Type}

/-- Stop with `e` when `c` holds. -/
def failIf (c : Prop) [Decidable c] (e : ε) : Except ε Unit :=
  if c then .error e else .ok ()

/-- The value of `o`, or stop with `e`. -/
def okOr (o : Option α) (e : ε) : Except ε α :=
  match o with
  | some a => .ok a
  | none => .error e

variable (a : α)

@[simp] theorem ok_bind (f : α → Except ε β) : (Except.ok a >>= f) = f a := rfl

@[simp] theorem pure_eq_ok : (pure a : Except ε α) = .ok a := rfl

@[simp] theorem error_bind (e : ε) (f : α → Except ε β) :
    ((Except.error e : Except ε α) >>= f) = .error e := rfl

variable {x : Except ε α} {f : α → Except ε β} {b : β}

theorem bind_eq_ok : (x >>= f) = .ok b ↔ ∃ a, x = .ok a ∧ f a = .ok b := by
  cases x <;> simp

theorem unit_bind_eq_ok {x : Except ε Unit} {f : Unit → Except ε β} :
    (x >>= f) = .ok b ↔ x = .ok () ∧ f () = .ok b := by
  cases x <;> simp

variable {e : ε}

theorem bind_eq_error : (x >>= f) = .error e ↔ x = .error e ∨ ∃ a, x = .ok a ∧ f a = .error e := by
  cases x <;> simp

variable {c : Prop}

@[simp] theorem failIf_eq_ok [Decidable c] {u : Unit} : failIf c e = .ok u ↔ ¬ c := by
  unfold failIf; split <;> simp_all

theorem failIf_neg [Decidable c] (h : ¬ c) : failIf c e = .ok () := by
  simp [h]

theorem failIf_pos [Decidable c] (h : c) : failIf c e = .error e := by
  simp [failIf, h]

/-- The rules that take a successful computation apart, for one `simp only`. -/
theorem ok_steps : (∀ {ε α β : Type} {x : Except ε α} {f : α → Except ε β} {b : β},
      (x >>= f) = .ok b ↔ ∃ a, x = .ok a ∧ f a = .ok b) ∧
    (∀ {ε : Type} {c : Prop} [Decidable c] {e : ε} {u : Unit}, failIf c e = .ok u ↔ ¬ c) ∧
    (∀ {ε α : Type} (a : α), (pure a : Except ε α) = .ok a) ∧
    ∀ {ε α : Type} {a b : α}, (Except.ok a : Except ε α) = .ok b ↔ a = b :=
  ⟨bind_eq_ok, failIf_eq_ok, pure_eq_ok, ⟨Except.ok.inj, congrArg _⟩⟩

/-- The same for a computation that may end in `none`. -/
theorem some_steps : (∀ {α β : Type} {x : Option α} {f : α → Option β} {b : β},
      (x >>= f) = some b ↔ ∃ a, x = some a ∧ f a = some b) ∧
    (∀ {α β : Type} {x : Option α} {f : α → Option β} {b : β},
      x.bind f = some b ↔ ∃ a, x = some a ∧ f a = some b) ∧
    (∀ {α : Type} (a : α), (pure a : Option α) = some a) ∧
    (∀ {α : Type} {a b : α}, some a = some b ↔ a = b) ∧
    (∀ {p : Prop} [Decidable p] {u : Unit}, (guard p : Option Unit) = some u ↔ p) ∧
    ∀ {p : Prop}, (∃ _ : Unit, p) ↔ p :=
  ⟨Option.bind_eq_some_iff, Option.bind_eq_some_iff, fun _ => rfl, Option.some_inj,
    fun {p} => by by_cases hp : p <;> simp [hp], exists_const Unit⟩

@[simp] theorem okOr_some (e : ε) : okOr (some a) e = .ok a := rfl

@[simp] theorem okOr_none (e : ε) : okOr (none : Option α) e = .error e := rfl

@[simp] theorem okOr_eq_ok {o : Option α} {a : α} : okOr o e = .ok a ↔ o = some a := by
  cases o <;> simp

theorem toOption_eq_some {a : α} : x.toOption = some a ↔ x = .ok a := by
  cases x <;> simp [Except.toOption]

theorem ok_of_toOption {a : α} (h : x.toOption = some a) : x = .ok a := by
  cases x with
  | ok b => cases h; rfl
  | error e => cases h

theorem exists_ok_of_isSome (h : x.toOption.isSome = true) : ∃ a, x = .ok a := by
  cases x with
  | ok a => exact ⟨a, rfl⟩
  | error e => cases h

theorem exists_ok_of_any {f : α → Bool} (h : x.toOption.any f = true) :
    ∃ a, x = .ok a ∧ f a = true := by
  cases x with
  | ok a => exact ⟨a, rfl, h⟩
  | error e => cases h

variable {l : List α} {l' : List β}

theorem mapM_eq_ok : l.mapM f = .ok l' ↔ List.Forall₂ (fun a b => f a = .ok b) l l' := by
  induction l generalizing l' with
  | nil =>
    rw [List.mapM_nil, List.forall₂_nil_left_iff, pure_eq_ok]
    exact ⟨fun h => (Except.ok.inj h).symm, fun h => by rw [h]⟩
  | cons a l ih =>
    rw [List.mapM_cons, List.forall₂_cons_left_iff]
    constructor
    · intro h
      obtain ⟨b, hb, h⟩ := bind_eq_ok.mp h
      obtain ⟨rest, hrest, h⟩ := bind_eq_ok.mp h
      exact ⟨b, rest, hb, ih.mp hrest, (Except.ok.inj h).symm⟩
    · rintro ⟨b, rest, hb, hrest, rfl⟩
      rw [hb, ih.mpr hrest]
      rfl

theorem mem_of_mapM (h : l.mapM f = .ok l') (hb : b ∈ l') : ∃ a ∈ l, f a = .ok b := by
  have hall := mapM_eq_ok.mp h
  clear h
  induction hall with
  | nil => cases hb
  | @cons a c l l' hac _ ih =>
    obtain rfl | hb := List.mem_cons.mp hb
    · exact ⟨a, List.mem_cons_self, hac⟩
    · obtain ⟨d, hd, hdb⟩ := ih hb
      exact ⟨d, List.mem_cons_of_mem _ hd, hdb⟩

end CommPlatform.Core
