import CommPlatform.Core.Derivation
import Mathlib.Data.List.Perm.Subperm
import Mathlib.Logic.Relation

/-!
# A store of message keys

What a receiver of a ratcheted session can open. A chain hands out one key
per message and steps on; keys of passed messages may be set aside; a
derivation from the current node starts the next chain. Message `n` of the
chain that starts at `k` has the key `keyAt next key k n`.

If the steps are injective and the derivations have no collisions, a key
used once is gone: it is not in the store, the running chain is past it, and
no chain to come has it.
-/
namespace CommPlatform.Core

variable {N D K M : Type*}

/-- The key of message `n` of the chain that starts at `k`. -/
def keyAt (next : K → K) (key : K → M) (k : K) (n : Nat) : M := key (next^[n] k)

/-- The current node, the running chain with its message number, and the keys set aside. -/
structure KeyStore (N K M : Type*) where
  root : N
  chain : Option K
  count : Nat
  keys : List (Nat × M)

namespace KeyStore

variable (node : N × D → N) (leaf : N × D → K) (next : K → K) (key : K → M) (Q : Set (N × D))

/-- `forget` drops or reorders keys, `derive` moves the node (a chain of the other direction),
`receive` also starts the running chain, `skip` sets the next key aside and `pass` uses it. -/
inductive Step : KeyStore N K M → KeyStore N K M → Prop
  | forget {s : KeyStore N K M} {keys : List (Nat × M)} (h : keys.Subperm s.keys) :
      Step s { s with keys := keys }
  | derive {s : KeyStore N K M} {d : D} (hq : (s.root, d) ∈ Q) :
      Step s { s with root := node (s.root, d) }
  | receive {s : KeyStore N K M} {d : D} (hq : (s.root, d) ∈ Q) :
      Step s ⟨node (s.root, d), some (leaf (s.root, d)), 0, s.keys⟩
  | skip {s : KeyStore N K M} {k : K} (hc : s.chain = some k) :
      Step s ⟨s.root, some (next k), s.count + 1, (s.count, key k) :: s.keys⟩
  | pass {s : KeyStore N K M} {k : K} (hc : s.chain = some k) :
      Step s { s with chain := some (next k), count := s.count + 1 }

/-- Message `n` is opened with the key `m`: one set aside, or the next one of the running chain
after some steps. -/
inductive Opens : KeyStore N K M → Nat → M → KeyStore N K M → Prop
  | stored {s : KeyStore N K M} {n : Nat} {m : M} {keys : List (Nat × M)}
      (h : s.keys.Perm ((n, m) :: keys)) : Opens s n m { s with keys := keys }
  | next {s s₁ : KeyStore N K M} {k : K}
      (h : Relation.ReflTransGen (Step node leaf next key Q) s s₁) (hc : s₁.chain = some k) :
      Opens s s₁.count (key k) { s₁ with chain := some (next k), count := s₁.count + 1 }

/-- Every key in reach is of a chain derived so far, and no message has two places. `l` is the
sequence of derivations. -/
structure Ledger (r₀ : N) (k₀ : K) (s : KeyStore N K M) (l : List (N × K)) : Prop where
  path : Derives node leaf Q r₀ k₀ l
  root : ∃ k l', l = (s.root, k) :: l'
  chain : ∀ c, s.chain = some c → ∃ r k, (r, k) ∈ l ∧ c = next^[s.count] k
  keys : ∀ e ∈ s.keys, ∃ r k, (r, k) ∈ l ∧ e.2 = keyAt next key k e.1
  distinct : s.keys.Nodup
  behind : ∀ e ∈ s.keys, ∀ k, s.chain = some (next^[s.count] k) → e.2 = keyAt next key k e.1 →
    e.1 < s.count

/-- Message `n` of the chain from `k` cannot be opened any more. -/
structure Spent (s : KeyStore N K M) (l : List (N × K)) (k : K) (n : Nat) : Prop where
  known : ∃ r, (r, k) ∈ l
  gone : (n, keyAt next key k n) ∉ s.keys
  passed : s.chain = some (next^[s.count] k) → n < s.count

section Laws

variable {n : Nat}
  {node leaf next key Q} {r₀ : N} {k₀ : K} {s s' : KeyStore N K M} {l : List (N × K)}

theorem keyAt_inj (hn : Function.Injective next) (hk : Function.Injective key) {k k' : K}
    (h : keyAt next key k n = keyAt next key k' n) : k = k' := hn.iterate n (hk h)

theorem iterate_next (hn : Function.Injective next) {k k' : K}
    (h : some (next (next^[n] k)) = some (next^[n + 1] k')) : k = k' := by
  rw [← Function.iterate_succ_apply' next] at h
  exact hn.iterate (n + 1) (Option.some.inj h)

variable (h : Ledger node leaf next key Q r₀ k₀ s l)
include h

theorem Ledger.leaf_new
    (hQ : NoCollision node leaf Q r₀ k₀) {d : D} (hq : (s.root, d) ∈ Q) (r : N) :
    (r, leaf (s.root, d)) ∉ l := by
  obtain ⟨k, l', rfl⟩ := h.root
  exact h.path.newLeaf hQ hq r

theorem Ledger.derived {d : D} (hq : (s.root, d) ∈ Q) :
    Derives node leaf Q r₀ k₀ ((node (s.root, d), leaf (s.root, d)) :: l) := by
  obtain ⟨k, l', rfl⟩ := h.root
  exact h.path.next hq

theorem Ledger.forget {keys : List (Nat × M)} (hsub : keys.Subperm s.keys) :
    Ledger node leaf next key Q r₀ k₀ { s with keys := keys } l := by
  refine ⟨h.path, h.root, h.chain, fun e he => h.keys e (hsub.subset he), ?_,
    fun e he => h.behind e (hsub.subset he)⟩
  obtain ⟨l', hp, hsub⟩ := hsub
  exact hp.nodup_iff.mp (h.distinct.sublist hsub)

omit h

theorem Ledger.pass (hn : Function.Injective next) (h : Ledger node leaf next key Q r₀ k₀ s l)
    {c : K} (hc : s.chain = some c) :
    Ledger node leaf next key Q r₀ k₀ { s with chain := some (next c), count := s.count + 1 } l := by
  obtain ⟨r, k₁, hm, rfl⟩ := h.chain c hc
  refine ⟨h.path, h.root, ?_, h.keys, h.distinct, ?_⟩
  · rintro c ⟨⟩
    exact ⟨r, k₁, hm, (Function.iterate_succ_apply' next _ _).symm⟩
  · intro e he k hck hek
    cases iterate_next hn hck
    exact Nat.lt_succ_of_lt (h.behind e he k₁ hc hek)

theorem Opens.steps {m : M} (h : Opens node leaf next key Q s n m s') :
    Relation.ReflTransGen (Step node leaf next key Q) s s' := by
  cases h with
  | stored hp => exact .single (.forget ((List.sublist_cons_self _ _).subperm.trans hp.symm.subperm))
  | next hsteps hc => exact hsteps.tail (.pass hc)

variable (hn : Function.Injective next) (hk : Function.Injective key)
  (hQ : NoCollision node leaf Q r₀ k₀)

include hn hk hQ

theorem Step.keeps (hstep : Step node leaf next key Q s s')
    (h : Ledger node leaf next key Q r₀ k₀ s l) :
    ∃ l', Ledger node leaf next key Q r₀ k₀ s' l' ∧
      ∀ k n, Spent next key s l k n → Spent next key s' l' k n := by
  cases hstep with
  | forget hsub =>
    exact ⟨l, h.forget hsub, fun k n hs =>
      ⟨hs.known, fun he => hs.gone (hsub.subset he), hs.passed⟩⟩
  | @derive d hq =>
    refine ⟨(node (s.root, d), leaf (s.root, d)) :: l, ⟨h.derived hq, ⟨_, _, rfl⟩, ?_, ?_,
      h.distinct, h.behind⟩, fun k n hs => ⟨?_, hs.gone, hs.passed⟩⟩
    · intro c hc
      obtain ⟨r, k, hm, hck⟩ := h.chain c hc
      exact ⟨r, k, List.mem_cons_of_mem _ hm, hck⟩
    · intro e he
      obtain ⟨r, k, hm, hek⟩ := h.keys e he
      exact ⟨r, k, List.mem_cons_of_mem _ hm, hek⟩
    · obtain ⟨r, hr⟩ := hs.known
      exact ⟨r, List.mem_cons_of_mem _ hr⟩
  | @receive d hq =>
    refine ⟨(node (s.root, d), leaf (s.root, d)) :: l, ⟨h.derived hq, ⟨_, _, rfl⟩, ?_, ?_,
      h.distinct, ?_⟩, fun k n hs => ⟨?_, hs.gone, ?_⟩⟩
    · rintro c ⟨⟩
      exact ⟨_, _, List.mem_cons_self, rfl⟩
    · intro e he
      obtain ⟨r, k, hm, hek⟩ := h.keys e he
      exact ⟨r, k, List.mem_cons_of_mem _ hm, hek⟩
    · -- no key of the new chain was set aside before
      rintro e he k ⟨⟩ hek
      obtain ⟨r, k', hm, hek'⟩ := h.keys e he
      cases keyAt_inj hn hk (hek.symm.trans hek')
      exact absurd hm (h.leaf_new hQ hq r)
    · obtain ⟨r, hr⟩ := hs.known
      exact ⟨r, List.mem_cons_of_mem _ hr⟩
    · rintro ⟨⟩
      obtain ⟨r, hr⟩ := hs.known
      exact absurd hr (h.leaf_new hQ hq r)
  | @skip c hc =>
    obtain ⟨r, k₁, hm, rfl⟩ := h.chain c hc
    refine ⟨l, ⟨h.path, h.root, ?_, ?_, ?_, ?_⟩, fun k n hs => ⟨hs.known, ?_, ?_⟩⟩
    · rintro c ⟨⟩
      exact ⟨r, k₁, hm, (Function.iterate_succ_apply' next _ _).symm⟩
    · intro e he
      rcases List.mem_cons.mp he with rfl | he
      · exact ⟨r, k₁, hm, rfl⟩
      · exact h.keys e he
    · exact List.nodup_cons.mpr ⟨fun he => lt_irrefl _ (h.behind _ he k₁ hc rfl), h.distinct⟩
    · intro e he k hck hek
      cases iterate_next hn hck
      rcases List.mem_cons.mp he with rfl | he
      · exact Nat.lt_succ_self _
      · exact Nat.lt_succ_of_lt (h.behind e he k₁ hc hek)
    · intro he
      rcases List.mem_cons.mp he with heq | he
      · obtain ⟨rfl, hkk⟩ := Prod.mk.inj heq
        cases keyAt_inj hn hk hkk
        exact lt_irrefl _ (hs.passed hc)
      · exact hs.gone he
    · intro hck
      cases iterate_next hn hck
      exact Nat.lt_succ_of_lt (hs.passed hc)
  | @pass c hc =>
    obtain ⟨r, k₁, hm, rfl⟩ := h.chain c hc
    refine ⟨l, h.pass hn hc, fun k n hs => ⟨hs.known, hs.gone, fun hck => ?_⟩⟩
    cases iterate_next hn hck
    exact Nat.lt_succ_of_lt (hs.passed hc)

theorem keeps_of_steps (hsteps : Relation.ReflTransGen (Step node leaf next key Q) s s')
    (h : Ledger node leaf next key Q r₀ k₀ s l) :
    ∃ l', Ledger node leaf next key Q r₀ k₀ s' l' ∧
      ∀ k n, Spent next key s l k n → Spent next key s' l' k n := by
  induction hsteps with
  | refl => exact ⟨l, h, fun _ _ hs => hs⟩
  | tail _ hstep ih =>
    obtain ⟨l₁, h₁, hs₁⟩ := ih
    obtain ⟨l₂, h₂, hs₂⟩ := hstep.keeps hn hk hQ h₁
    exact ⟨l₂, h₂, fun k n hs => hs₂ k n (hs₁ k n hs)⟩

theorem Opens.spends {m : M} (ho : Opens node leaf next key Q s n m s')
    (h : Ledger node leaf next key Q r₀ k₀ s l) :
    ∃ l' k, Ledger node leaf next key Q r₀ k₀ s' l' ∧ m = keyAt next key k n ∧
      Spent next key s' l' k n := by
  cases ho with
  | @stored _ _ keys hp =>
    have hin := hp.mem_iff.mpr List.mem_cons_self
    have hgone := (List.nodup_cons.mp (hp.nodup_iff.mp h.distinct)).1
    obtain ⟨r, k, hm, (hmk : m = _)⟩ := h.keys _ hin
    have hsub : keys.Subperm s.keys := (List.sublist_cons_self _ _).subperm.trans hp.symm.subperm
    exact ⟨l, k, h.forget hsub, hmk, ⟨r, hm⟩, hmk ▸ hgone, fun hc => h.behind _ hin k hc hmk⟩
  | @next s₁ c hsteps hc =>
    obtain ⟨l₁, h₁, -⟩ := keeps_of_steps hn hk hQ hsteps h
    have hpass := h₁.pass hn hc
    obtain ⟨r, k, hm, rfl⟩ := h₁.chain c hc
    exact ⟨l₁, k, hpass, rfl, ⟨r, hm⟩, fun he => lt_irrefl _ (h₁.behind _ he k hc rfl),
      fun _ => Nat.lt_succ_self _⟩

theorem Spent.not_opens {k : K} (hs : Spent next key s l k n)
    (h : Ledger node leaf next key Q r₀ k₀ s l) :
    ¬ Opens node leaf next key Q s n (keyAt next key k n) s' := by
  generalize hm : keyAt next key k n = m
  intro ho
  cases ho with
  | stored hp => exact hs.gone (hm ▸ hp.mem_iff.mpr List.mem_cons_self)
  | @next s₁ c hsteps hc =>
    obtain ⟨l₁, h₁, hspent⟩ := keeps_of_steps hn hk hQ hsteps h
    obtain ⟨r, k', -, rfl⟩ := h₁.chain c hc
    cases keyAt_inj hn hk hm
    exact lt_irrefl _ ((hspent k _ hs).passed hc)

end Laws

end KeyStore

end CommPlatform.Core
