import Mathlib.Logic.Relation

/-!
# Runs of a transition system

A system is a set of initial states and a step relation. `Reachable` is
closure under steps; `Inductive` packages the one induction every safety
result needs: what holds initially and is kept by each step holds in every
reachable state.
-/
namespace CommPlatform.Core

structure System (σ : Type*) where
  init : σ → Prop
  step : σ → σ → Prop

namespace System

variable {σ : Type*} (M : System σ)

/-- Reached from an initial state by finitely many steps. -/
inductive Reachable : σ → Prop
  | init {s : σ} (h : M.init s) : Reachable s
  | step {s s' : σ} (hr : Reachable s) (h : M.step s s') : Reachable s'

/-- `I` holds initially and is kept by every step. -/
structure Inductive (I : σ → Prop) : Prop where
  init : ∀ s, M.init s → I s
  step : ∀ s s', I s → M.step s s' → I s'

variable {M}

theorem Reachable.steps {s t : σ} (hr : M.Reachable s) (h : Relation.ReflTransGen M.step s t) :
    M.Reachable t := by
  induction h with
  | refl => exact hr
  | tail _ hs ih => exact .step ih hs

theorem Inductive.reachable {I : σ → Prop} (h : M.Inductive I) {s : σ} (hr : M.Reachable s) :
    I s := by
  induction hr with
  | init h0 => exact h.init _ h0
  | step _ hs ih => exact h.step _ _ ih hs

/-- The events `ε`, each with what `next` makes of it. -/
def ofNext {ε : Type*} (init : σ → Prop) (next : σ → ε → Option σ) : System σ where
  init := init
  step s s' := ∃ e, next s e = some s'

theorem Reachable.foldlM {ε : Type*} {init : σ → Prop} {next : σ → ε → Option σ} {s t : σ}
    (hr : (ofNext init next).Reachable s) (es : List ε) (h : es.foldlM next s = some t) :
    (ofNext init next).Reachable t := by
  induction es generalizing s with
  | nil => cases h; exact hr
  | cons e es ih =>
    obtain ⟨u, hu, h⟩ := Option.bind_eq_some_iff.mp h
    exact ih (hr.step ⟨e, hu⟩) h

end System

end CommPlatform.Core
