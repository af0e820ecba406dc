import Mathlib.Data.Set.Function
import Mathlib.Data.List.Nodup

/-!
# Chains of key derivations

A derivation maps a node and an input to the next node and to a leaf. A run
that always derives from its newest node makes a sequence of nodes, each
with the leaf derived along with it. If the inputs used have no collisions,
neither among themselves nor with the start:

* `Derives.nodes_nodup`: no node comes back.

Collision-freeness is asked of a set of inputs only: a derivation into
values of a fixed size cannot be injective on all of them.
-/
namespace CommPlatform.Core

variable {N D K : Type*}

/-- On the inputs `Q`, neither output collides, nor does one hit the start `(r₀, k₀)`. -/
structure NoCollision (node : N × D → N) (leaf : N × D → K) (Q : Set (N × D)) (r₀ : N) (k₀ : K) :
    Prop where
  nodeInj : Set.InjOn node Q
  leafInj : Set.InjOn leaf Q
  newNode : ∀ q ∈ Q, node q ≠ r₀
  newLeaf : ∀ q ∈ Q, leaf q ≠ k₀

/-- Sequences of nodes with their leaves, newest first, each derived from the one before with an
input of `Q`. -/
inductive Derives (node : N × D → N) (leaf : N × D → K) (Q : Set (N × D)) (r₀ : N) (k₀ : K) :
    List (N × K) → Prop
  | start : Derives node leaf Q r₀ k₀ [(r₀, k₀)]
  | next {r : N} {k : K} {l : List (N × K)} {d : D} (h : Derives node leaf Q r₀ k₀ ((r, k) :: l))
      (hq : (r, d) ∈ Q) : Derives node leaf Q r₀ k₀ ((node (r, d), leaf (r, d)) :: (r, k) :: l)

namespace Derives

variable {node : N × D → N} {leaf : N × D → K} {Q : Set (N × D)} {r₀ r : N} {k₀ k : K}
  {l : List (N × K)} {d : D}

theorem origin (h : Derives node leaf Q r₀ k₀ l) (hm : (r, k) ∈ l) :
    (r = r₀ ∧ k = k₀) ∨ ∃ r' k' d l₁ l₂, (r', d) ∈ Q ∧ r = node (r', d) ∧ k = leaf (r', d) ∧
      l = l₁ ++ (r, k) :: (r', k') :: l₂ := by
  induction h with
  | start =>
    obtain ⟨rfl, rfl⟩ : r = r₀ ∧ k = k₀ := by simpa using hm
    exact .inl ⟨rfl, rfl⟩
  | @next r1 k1 l d _ hq ih =>
    rcases List.mem_cons.mp hm with heq | hm
    · cases heq
      exact .inr ⟨r1, k1, d, [], l, hq, rfl, rfl, rfl⟩
    · rcases ih hm with h0 | ⟨r', k', d', l₁, l₂, hq', hr, hk, hl⟩
      · exact .inl h0
      · exact .inr ⟨r', k', d', (node (r1, d), leaf (r1, d)) :: l₁, l₂, hq', hr, hk, by rw [hl]; rfl⟩

theorem tail {a b : N × K} (h : Derives node leaf Q r₀ k₀ (a :: b :: l)) :
    Derives node leaf Q r₀ k₀ (b :: l) := by
  cases h with
  | next h _ => exact h

variable (hQ : NoCollision node leaf Q r₀ k₀)
include hQ

theorem nodes_nodup (h : Derives node leaf Q r₀ k₀ l) : (l.map Prod.fst).Nodup := by
  induction h with
  | start => simp
  | @next r k l d h hq ih =>
    refine List.nodup_cons.mpr ⟨fun hmem => ?_, ih⟩
    obtain ⟨⟨r', k'⟩, hm, hr⟩ := List.mem_map.mp hmem
    rcases h.origin hm with ⟨rfl, -⟩ | ⟨r'', k'', d', l₁, l₂, hq', hr', -, hl⟩
    · exact hQ.newNode _ hq hr.symm
    · -- the same input was used before, so its node is both the newest and an older one
      have hsame := hQ.nodeInj hq' hq (hr'.symm.trans hr)
      cases hsame
      rw [hl] at ih
      cases l₁ with
      | nil | cons a l₁ => cases hl; simp at ih

theorem follows (h : Derives node leaf Q r₀ k₀ l)
    (hq : (r, d) ∈ Q) {r' : N} (hm : (r', leaf (r, d)) ∈ l) :
    ∃ k' l₁ l₂, l = l₁ ++ (r', leaf (r, d)) :: (r, k') :: l₂ := by
  rcases h.origin hm with ⟨-, hk⟩ | ⟨r'', k'', d', l₁, l₂, hq', -, hk, hl⟩
  · exact absurd hk (hQ.newLeaf _ hq)
  · cases hQ.leafInj hq hq' hk
    exact ⟨k'', l₁, l₂, hl⟩

theorem newLeaf (h : Derives node leaf Q r₀ k₀ ((r, k) :: l))
    (hq : (r, d) ∈ Q) (r' : N) : (r', leaf (r, d)) ∉ (r, k) :: l := by
  intro hm
  obtain ⟨k', l₁, l₂, hl⟩ := h.follows hQ hq hm
  have hn := h.nodes_nodup hQ
  rw [hl] at hn
  cases l₁ with
  | nil | cons a l₁ => cases hl; simp at hn

end Derives

end CommPlatform.Core
