import CommPlatform.Core.Outcome

/-!
# Counted computations

A fallible computation that also says how often its loops were entered. The
count goes on beside the result and is kept when the computation stops at an
error, so that a bound on it holds for failing calls too.
-/
namespace CommPlatform.Core

structure Counted (ε α : Type) where
  passes : Nat
  result : Except ε α

namespace Counted

variable {ε α β : Type}

instance : Monad (Counted ε) where
  pure a := ⟨0, .ok a⟩
  bind x f := match x.result with
    | .ok a => ⟨x.passes + (f a).passes, (f a).result⟩
    | .error e => ⟨x.passes, .error e⟩

/-- What makes no pass. -/
instance : MonadLift (Except ε) (Counted ε) := ⟨fun x => ⟨0, x⟩⟩

def pass : Counted ε Unit := ⟨1, .ok ()⟩

theorem result_bind (x : Counted ε α) (f : α → Counted ε β) :
    (x >>= f).result = x.result >>= fun a => (f a).result := by
  obtain ⟨n, _ | a⟩ := x <;> rfl

/-- The result of a computation is that of the same computation without the count. -/
theorem result_steps :
    (∀ {ε α β : Type} (x : Counted ε α) (f : α → Counted ε β),
      (x >>= f).result = x.result >>= fun a => (f a).result) ∧
    (∀ {ε α : Type} (x : Except ε α), (liftM x : Counted ε α).result = x) ∧
    (∀ {ε α : Type} (a : α), (pure a : Counted ε α).result = .ok a) ∧
    (∀ {ε : Type}, (pass : Counted ε Unit).result = .ok ()) ∧
    ∀ {ε α : Type} {c : Prop} [Decidable c] (x y : Counted ε α),
      (if c then x else y).result = if c then x.result else y.result :=
  ⟨result_bind, fun _ => rfl, fun _ => rfl, rfl, fun _ _ => apply_ite _ _ _ _⟩

variable {x : Counted ε α} {f : α → Counted ε β} {m n : Nat}

theorem passes_bind_le (hx : x.passes ≤ m) (hf : ∀ a, x.result = .ok a → (f a).passes ≤ n) :
    (x >>= f).passes ≤ m + n := by
  obtain ⟨k, e | a⟩ := x
  · exact Nat.le_trans hx (Nat.le_add_right m n)
  · exact Nat.add_le_add hx (hf a rfl)

theorem passes_lift_bind_le {x : Except ε α} (hf : ∀ a, x = .ok a → (f a).passes ≤ n) :
    ((liftM x : Counted ε α) >>= f).passes ≤ n := by
  have h := passes_bind_le (x := (liftM x : Counted ε α)) (Nat.le_refl 0) hf
  rwa [Nat.zero_add] at h

end Counted

end CommPlatform.Core
