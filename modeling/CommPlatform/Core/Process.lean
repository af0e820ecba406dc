import CommPlatform.Core.Runs

/-!
# Processes that call out

A process is a tree of the calls it may make: it returns, fails, or makes a
call and goes on with the answer. Between two calls of one process anything
else may happen, so a program with `await`s is a process whose calls are its
awaits.

* `World.reachable_run`, `World.reachable_steps`: the run of one process, or some
  of its calls, are a run of the world.
* `World.apart`: the world in which some changes are made only while nothing else
  waits; `ApartSafe.step` says what each step of it does.
-/
namespace CommPlatform.Core

/-- A process with calls `c : C`, answered by an `A c`. -/
inductive Proc (C : Type) (A : C → Type) (ε α : Type)
  | ret (a : α)
  | fail (e : ε)
  | ask (c : C) (k : A c → Proc C A ε α)

namespace Proc

variable {C : Type} {A : C → Type} {ε α β σ : Type}

protected def bind : Proc C A ε α → (α → Proc C A ε β) → Proc C A ε β
  | ret a, f => f a
  | fail e, _ => fail e
  | ask c k, f => ask c fun a => (k a).bind f

instance : Monad (Proc C A ε) where
  pure := ret
  bind := Proc.bind

def call (c : C) : Proc C A ε (A c) := ask c ret

/-- Return what succeeded, or fail with what failed. -/
def ofExcept : Except ε α → Proc C A ε α
  | .ok a => ret a
  | .error e => fail e

def check (p : Prop) [Decidable p] (e : ε) : Proc C A ε Unit := if p then ret () else fail e

variable (a : α)

@[simp] theorem ret_bind (f : α → Proc C A ε β) : (ret a >>= f) = f a := rfl

variable (e : ε) (c : C)

@[simp] theorem ask_bind (k : A c → Proc C A ε α) (f : α → Proc C A ε β) :
    (ask c k >>= f) = ask c fun a => k a >>= f := rfl

@[simp] theorem ofExcept_ok_bind (f : α → Proc C A ε β) : (ofExcept (.ok a) >>= f) = f a := rfl

theorem check_bind_of {p : Prop} [Decidable p] (h : p) (e : ε) (f : Unit → Proc C A ε β) :
    (check p e >>= f) = f () := by
  rw [check, if_pos h, ret_bind]

/-- The process with its failure as a value. -/
def attempt : Proc C A ε α → Proc C A ε (Except ε α)
  | ret a => ret (.ok a)
  | fail e => ret (.error e)
  | ask c k => ask c fun a => attempt (k a)

/-! ## Alone -/

/-- The process alone: each call is answered at once. -/
def run (calls : (c : C) → σ → A c × σ) : Proc C A ε α → σ → Except ε α × σ
  | ret a, s => (.ok a, s)
  | fail e, s => (.error e, s)
  | ask c k, s => run calls (k (calls c s).1) (calls c s).2

variable {calls : (c : C) → σ → A c × σ} {s : σ}

@[simp] theorem run_ret : (ret a : Proc C A ε α).run calls s = (.ok a, s) := rfl

@[simp] theorem run_fail : (fail e : Proc C A ε α).run calls s = (.error e, s) := rfl

@[simp] theorem run_ask (k : A c → Proc C A ε α) :
    (ask c k).run calls s = (k (calls c s).1).run calls (calls c s).2 := rfl

theorem run_bind (p : Proc C A ε α) (f : α → Proc C A ε β) : (p >>= f).run calls s =
    match p.run calls s with
    | (.ok a, s') => (f a).run calls s'
    | (.error e, s') => (.error e, s') := by
  induction p generalizing s with
  | ret a => rfl
  | fail e => rfl
  | ask c k ih =>
    exact ih _

/-- The process after `n` of its calls. -/
def steps (calls : (c : C) → σ → A c × σ) : Nat → Proc C A ε α → σ → Proc C A ε α × σ
  | n + 1, ask c k, s => steps calls n (k (calls c s).1) (calls c s).2
  | _, p, s => (p, s)

/-- Each call of the run is made where `ok` allows it. -/
def allCalls (ok : C → σ → Bool) (calls : (c : C) → σ → A c × σ) : Proc C A ε α → σ → Bool
  | ret _, _ => true
  | fail _, _ => true
  | ask c k, s => ok c s && allCalls ok calls (k (calls c s).1) (calls c s).2

/-! ## Among others -/

section Safe

/-- What a process meets and owes. `calls c s a s'`: what the call can answer and leave.
`rely s s'`: what may happen while it waits. `guar s s'`: what its own calls may do. `failed s`: what
a process that fails leaves. -/
structure Rules (C : Type) (A : C → Type) (σ : Type) where
  calls : (c : C) → σ → A c → σ → Prop
  rely : σ → σ → Prop
  guar : σ → σ → Prop
  inv : σ → Prop
  failed : σ → Prop
  rely_refl : ∀ s, rely s s
  rely_trans : ∀ {s t u}, rely s t → rely t u → rely s u

variable {M : Rules C A σ}

/-- From `s` on, each call the process makes keeps the invariant and the guarantee, and `Q` holds of
what it returns. -/
def Safe (M : Rules C A σ) (Q : α → σ → Prop) : Proc C A ε α → σ → Prop
  | ret a, s => Q a s
  | fail _, s => M.failed s
  | ask c k, s => ∀ t, M.rely s t → M.inv t → ∀ a u, M.calls c t a u →
      M.inv u ∧ M.guar t u ∧ Safe M Q (k a) u

variable {p : Proc C A ε α} {Q : α → σ → Prop}

theorem Safe.mono {Q' : α → σ → Prop} (hQ : ∀ a s, Q a s → Q' a s)
    (h : p.Safe M Q s) : p.Safe M Q' s := by
  induction p generalizing s with
  | ret a => exact hQ a s h
  | fail e => exact h
  | ask c k ih =>
    intro t ht hi a u hc
    obtain ⟨hu, hguar, hk⟩ := h t ht hi a u hc
    exact ⟨hu, hguar, ih a hk⟩

theorem Safe.bind {Q : β → σ → Prop} {f : α → Proc C A ε β}
    (h : p.Safe M (fun a s => (f a).Safe M Q s) s) : (p >>= f).Safe M Q s := by
  induction p generalizing s with
  | ret a => exact h
  | fail e => exact h
  | ask c k ih =>
    intro t ht hi a u hc
    obtain ⟨hu, hguar, hk⟩ := h t ht hi a u hc
    exact ⟨hu, hguar, ih a hk⟩

theorem Safe.attempt {Q : Except ε α → σ → Prop}
    (h : p.Safe M (fun a s => Q (.ok a) s) s) (hfailed : ∀ e s, M.failed s → Q (.error e) s) :
    p.attempt.Safe M Q s := by
  induction p generalizing s with
  | ret a => exact h
  | fail e => exact hfailed e s h
  | ask c k ih =>
    intro t ht hi a u hc
    obtain ⟨hu, hguar, hk⟩ := h t ht hi a u hc
    exact ⟨hu, hguar, ih a hk⟩

theorem Safe.later {c : C} {k : A c → Proc C A ε α} {t : σ}
    (h : (ask c k).Safe M Q s) (hst : M.rely s t) : (ask c k).Safe M Q t :=
  fun _ htu => h _ (M.rely_trans hst htu)

theorem Safe.among {t : σ} (hfailed : ∀ s, M.failed s)
    (h : p.Safe M (fun _ _ => True) s) (hst : M.rely s t) : p.Safe M (fun _ _ => True) t := by
  cases p with
  | ret a => trivial
  | fail e => exact hfailed t
  | ask c k => exact h.later hst

theorem Safe.advance {c : C} {k : A c → Proc C A ε α} {u : σ} {a : A c}
    (h : (ask c k).Safe M Q s) (hi : M.inv s) (hc : M.calls c s a u) :
    M.inv u ∧ M.guar s u ∧ (k a).Safe M Q u :=
  h s (M.rely_refl s) hi a u hc

theorem safe_check {Q : Unit → σ → Prop} {p : Prop} [Decidable p] {e : ε}
    (hfailed : ¬ p → M.failed s) (h : p → Q () s) : (check p e : Proc C A ε Unit).Safe M Q s := by
  unfold check
  split
  · next hp => exact h hp
  · next hp => exact hfailed hp

theorem safe_ofExcept {x : Except ε α}
    (hfailed : ∀ e, x = .error e → M.failed s) (h : ∀ a, x = .ok a → Q a s) :
    (ofExcept x : Proc C A ε α).Safe M Q s := by
  cases x with
  | ok a => exact h a rfl
  | error e => exact hfailed e rfl

end Safe

/-! ## One kind of process at many places -/

section Tagged

variable {ι : Type}

/-- The process at a place `i`. -/
def tagged (i : ι) : Proc C A ε α → Proc (ι × C) (fun c => A c.2) ε α
  | ret a => ret a
  | fail e => fail e
  | ask c k => ask (i, c) fun a => tagged i (k a)

/-- What a process at `i` meets and owes. -/
def Rules.place (M : Rules (ι × C) (fun c => A c.2) σ) (i : ι) : Rules C A σ :=
  { M with calls := fun c => M.calls (i, c) }

theorem Safe.tagged {M : Rules (ι × C) (fun c => A c.2) σ} {i : ι} {Q : α → σ → Prop}
    {p : Proc C A ε α} (h : p.Safe (M.place i) Q s) : (p.tagged i).Safe M Q s := by
  induction p generalizing s with
  | ret a => exact h
  | fail e => exact h
  | ask c k ih =>
    intro t ht hi a u hc
    obtain ⟨hu, hguar, hk⟩ := h t ht hi a u hc
    exact ⟨hu, hguar, ih a hk⟩

end Tagged

/-! ## Many processes -/

structure Pool (C : Type) (A : C → Type) (ε α σ : Type) where
  state : σ
  procs : List (Proc C A ε α)

/-- A world in which processes start and wait at any time, and something else (`env`) goes on. -/
structure World (C : Type) (A : C → Type) (ε α σ : Type) where
  init : σ → Prop
  env : σ → σ → Prop
  starts : Proc C A ε α → Prop
  calls : (c : C) → σ → A c → σ → Prop

namespace World

inductive Step (W : World C A ε α σ) : Pool C A ε α σ → Pool C A ε α σ → Prop
  | env {s t ps} (h : W.env s t) : Step W ⟨s, ps⟩ ⟨t, ps⟩
  | start {s ps p} (h : W.starts p) : Step W ⟨s, ps⟩ ⟨s, ps ++ [p]⟩
  | call {s t ps i c k a} (hp : ps[i]? = some (ask c k)) (h : W.calls c s a t) :
    Step W ⟨s, ps⟩ ⟨t, ps.set i (k a)⟩

def system (W : World C A ε α σ) : System (Pool C A ε α σ) where
  init pool := W.init pool.state ∧ pool.procs = []
  step := Step W

/-- Safe among what its own kind may do, every process keeps the invariant in a pool of them. -/
theorem inductive_of_safe (W : World C A ε α σ) (M : Rules C A σ) (hcalls : M.calls = W.calls)
    (hguar : ∀ s t, M.guar s t → M.rely s t) (hfailed : ∀ s, M.failed s)
    (hinit : ∀ s, W.init s → M.inv s)
    (henv : ∀ s t, M.inv s → W.env s t → M.inv t ∧ M.rely s t)
    (hstart : ∀ p, W.starts p → ∀ s, M.inv s → p.Safe M (fun _ _ => True) s) :
    W.system.Inductive fun pool =>
      M.inv pool.state ∧ ∀ p ∈ pool.procs, p.Safe M (fun _ _ => True) pool.state where
  init pool h := by
    refine ⟨hinit _ h.1, fun p hp => ?_⟩
    rw [h.2] at hp
    exact absurd hp List.not_mem_nil
  step pool pool' h hstep := by
    obtain ⟨hinv, hsafe⟩ := h
    cases hstep with
    | env he =>
      obtain ⟨hinv', hrely⟩ := henv _ _ hinv he
      exact ⟨hinv', fun p hp => (hsafe p hp).among hfailed hrely⟩
    | start hs =>
      refine ⟨hinv, fun p hp => ?_⟩
      rcases List.mem_append.mp hp with hp | hp
      · exact hsafe p hp
      · rw [List.mem_singleton.mp hp]
        exact hstart _ hs _ hinv
    | call hp hc =>
      obtain ⟨hinv', hg, hk⟩ := (hsafe _ (List.mem_of_getElem? hp)).advance hinv (hcalls ▸ hc)
      refine ⟨hinv', fun q hq => ?_⟩
      rcases List.mem_or_eq_of_mem_set hq with hq | rfl
      · exact (hsafe q hq).among hfailed (hguar _ _ hg)
      · exact hk

variable {W : World C A ε α σ} {ps : List (Proc C A ε α)}

theorem reachable_env {t : σ}
    (hr : W.system.Reachable ⟨s, ps⟩) (h : Relation.ReflTransGen W.env s t) :
    W.system.Reachable ⟨t, ps⟩ := by
  induction h with
  | refl => exact hr
  | tail _ he ih => exact .step ih (.env he)

/-- A process that nothing but `env` interrupts: each of its calls is answered by `f`, after what
`env` did before it. -/
theorem reachable_run (ok : C → σ → Bool) (f : (c : C) → σ → A c × σ)
    (hf : ∀ c s, ok c s → ∃ t, Relation.ReflTransGen W.env s t ∧ W.calls c t (f c s).1 (f c s).2)
    (p : Proc C A ε α) (hok : p.allCalls ok f s)
    (hr : W.system.Reachable ⟨s, ps ++ [p]⟩) :
    ∃ q, W.system.Reachable ⟨(p.run f s).2, ps ++ [q]⟩ := by
  induction p generalizing s with
  | ret a | fail e => exact ⟨_, hr⟩
  | ask c k ih =>
    obtain ⟨hcall, hrest⟩ := Bool.and_eq_true_iff.mp hok
    obtain ⟨t, ht, hc⟩ := hf c s hcall
    have hlast : (ps ++ [ask c k])[ps.length]? = some (ask c k) := by simp
    refine ih (f c s).1 hrest ?_
    simpa using System.Reachable.step (reachable_env hr ht) (.call hlast hc)

theorem steps_steps (f : (c : C) → σ → A c × σ)
    (hf : ∀ c s, W.calls c s (f c s).1 (f c s).2) (n : Nat) (p : Proc C A ε α) (s : σ)
    (before after : List (Proc C A ε α)) :
    Relation.ReflTransGen W.system.step ⟨s, before ++ p :: after⟩
      ⟨(p.steps f n s).2, before ++ (p.steps f n s).1 :: after⟩ := by
  induction n generalizing p s with
  | zero =>
    cases p <;> exact .refl
  | succ n ih =>
    cases p with
    | ret a | fail e => exact .refl
    | ask c k =>
      have hat : (before ++ ask c k :: after)[before.length]? = some (ask c k) := by simp
      have hset : (before ++ ask c k :: after).set before.length (k (f c s).1) =
          before ++ k (f c s).1 :: after := by simp
      exact .head (hset ▸ Step.call hat (hf c s)) (ih _ _)

theorem reachable_steps (f : (c : C) → σ → A c × σ)
    (hf : ∀ c s, W.calls c s (f c s).1 (f c s).2) (n : Nat) (p : Proc C A ε α)
    (before after : List (Proc C A ε α)) (hr : W.system.Reachable ⟨s, before ++ p :: after⟩) :
    W.system.Reachable ⟨(p.steps f n s).2, before ++ (p.steps f n s).1 :: after⟩ :=
  hr.steps (steps_steps f hf n p s before after)

/-! ### Some changes alone -/

/-- The process does not wait any more. -/
def ended : Proc C A ε α → Prop
  | ask _ _ => False
  | _ => True

/-- A world in which the changes `alone` names are made only while nothing else waits. -/
inductive ApartStep (W : World C A ε α σ) (alone : σ → σ → Prop) :
    Pool C A ε α σ → Pool C A ε α σ → Prop
  | env {s t ps} (h : W.env s t) (ha : alone s t → ∀ p ∈ ps, ended p) :
    ApartStep W alone ⟨s, ps⟩ ⟨t, ps⟩
  | start {s ps p} (h : W.starts p) : ApartStep W alone ⟨s, ps⟩ ⟨s, ps ++ [p]⟩
  | call {s t ps i c k a} (hp : ps[i]? = some (ask c k)) (h : W.calls c s a t)
    (ha : alone s t → ∀ j p, j ≠ i → ps[j]? = some p → ended p) :
    ApartStep W alone ⟨s, ps⟩ ⟨t, ps.set i (k a)⟩

def apart (W : World C A ε α σ) (alone : σ → σ → Prop) : System (Pool C A ε α σ) where
  init pool := W.init pool.state ∧ pool.procs = []
  step := ApartStep W alone

theorem safe_of_ended {M : Rules C A σ} (hfailed : ∀ s, M.failed s) {p : Proc C A ε α} (h : ended p)
    (s : σ) : p.Safe M (fun _ _ => True) s := by
  cases p with
  | ret a => trivial
  | fail e => exact hfailed s
  | ask c k => exact h.elim

/-- What keeps the invariant of an `apart` world, and what each step of it does. -/
structure ApartSafe (W : World C A ε α σ) (alone : σ → σ → Prop) (M : Rules C A σ) : Prop where
  calls : M.calls = W.calls
  failed : ∀ s, M.failed s
  guar_refl : ∀ s, M.guar s s
  guar : ∀ s t, M.guar s t → ¬ alone s t → M.rely s t
  init : ∀ s, W.init s → M.inv s
  env : ∀ s t, M.inv s → W.env s t → M.inv t ∧ M.guar s t
  start : ∀ p, W.starts p → ∀ s, M.inv s → p.Safe M (fun _ _ => True) s

namespace ApartSafe

variable {W : World C A ε α σ} {alone : σ → σ → Prop} {M : Rules C A σ}

theorem step (h : ApartSafe W alone M) {pool pool' : Pool C A ε α σ} (hinv : M.inv pool.state)
    (hsafe : ∀ p ∈ pool.procs, p.Safe M (fun _ _ => True) pool.state)
    (hstep : ApartStep W alone pool pool') :
    M.guar pool.state pool'.state ∧ M.inv pool'.state ∧
      ∀ p ∈ pool'.procs, p.Safe M (fun _ _ => True) pool'.state := by
  -- a process that waited goes on being safe, unless the change was one to be made alone
  have hother : ∀ {s t : σ} {p : Proc C A ε α}, M.guar s t → (alone s t → ended p) →
      p.Safe M (fun _ _ => True) s → p.Safe M (fun _ _ => True) t := by
    intro s t p hguar hover hp
    by_cases ha : alone s t
    · exact safe_of_ended h.failed (hover ha) t
    · exact hp.among h.failed (h.guar s t hguar ha)
  cases hstep with
  | env he ha =>
    obtain ⟨hinv', hguar⟩ := h.env _ _ hinv he
    exact ⟨hguar, hinv', fun p hp => hother hguar (fun h => ha h p hp) (hsafe p hp)⟩
  | start hs =>
    refine ⟨h.guar_refl _, hinv, fun p hp => ?_⟩
    rcases List.mem_append.mp hp with hp | hp
    · exact hsafe p hp
    · rw [List.mem_singleton.mp hp]
      exact h.start _ hs _ hinv
  | @call s t ps i c k a hp hc ha =>
    obtain ⟨hinv', hguar, hk⟩ := (hsafe _ (List.mem_of_getElem? hp)).advance hinv (h.calls ▸ hc)
    refine ⟨hguar, hinv', fun q hq => ?_⟩
    obtain ⟨j, hj⟩ := List.getElem?_of_mem hq
    rw [List.getElem?_set] at hj
    split at hj
    · split at hj
      · rw [← Option.some.inj hj]
        exact hk
      · cases hj
    · next hne =>
      exact hother hguar (fun h => ha h j q (Ne.symm hne) hj) (hsafe q (List.mem_of_getElem? hj))

theorem inductive_apart (h : ApartSafe W alone M) : (W.apart alone).Inductive fun pool =>
    M.inv pool.state ∧ ∀ p ∈ pool.procs, p.Safe M (fun _ _ => True) pool.state where
  init pool hi := by
    refine ⟨h.init _ hi.1, fun p hp => ?_⟩
    rw [hi.2] at hp
    exact absurd hp List.not_mem_nil
  step _ _ hpool hstep := (h.step hpool.1 hpool.2 hstep).2

end ApartSafe

end World

end Proc

end CommPlatform.Core
