import Mathlib.Logic.Function.Basic

/-!
# Optimistic transactions

A transaction reads the store, prepares a change outside it, and commits the
change later; the commit is atomic and may be refused. `play` is what a
schedule of reads and commits leaves. Two transactions interleave in six
ways: in four of them both read before the first commit.

* `play_cases`: a schedule of two transactions ends with a refused commit,
  leaves what running them one after the other leaves, or has both read one
  store and commit.
-/
namespace CommPlatform.Core

/-- All ways to merge two lists, each in its own order. -/
def interleavings {α : Type*} : List α → List α → List (List α)
  | [], m => [m]
  | l, [] => [l]
  | a :: l, b :: m =>
    (interleavings l (b :: m)).map (a :: ·) ++ (interleavings (a :: l) m).map (b :: ·)
termination_by l m => l.length + m.length

/-- A transaction: what it prepares from the store it reads, and the commit of that. -/
structure Txn (σ κ : Type*) where
  prepare : σ → Option κ
  commit : κ → σ → Option σ

namespace Txn

variable {σ κ : Type*}

inductive Event
  | read (second : Bool)
  | commit (second : Bool)

/-- The store, what each transaction prepared, and whether the last commit was refused. -/
structure Play (σ κ : Type*) where
  store : σ
  plan : Bool → Option κ
  refused : Bool

def Play.step (t : Bool → Txn σ κ) (p : Play σ κ) : Event → Play σ κ
  | .read i => { p with plan := Function.update p.plan i ((t i).prepare p.store) }
  | .commit i =>
    match p.plan i with
    | none => p
    | some k =>
      match (t i).commit k p.store with
      | some s => { p with store := s, refused := false }
      | none => { p with refused := true }

def play (t : Bool → Txn σ κ) (schedule : List Event) (s : σ) : Play σ κ :=
  schedule.foldl (Play.step t) ⟨s, fun _ => none, false⟩

/-- Every order of the reads and commits of two transactions. -/
def schedules : List (List Event) :=
  interleavings [.read false, .commit false] [.read true, .commit true]

/-- Commit a prepared change, if there is one and it is not refused. -/
def finish (t : Txn σ κ) (plan : Option κ) (s : σ) : σ :=
  (plan.bind fun k => t.commit k s).getD s

def run (t : Txn σ κ) (s : σ) : σ := t.finish (t.prepare s) s

/-- `s'` looks like `t` after `u` or `u` after `t`, run from `s`. -/
def Serial {ν : Type*} (view : σ → ν) (t : Bool → Txn σ κ) (s s' : σ) : Prop :=
  ∃ i, view s' = view ((t !i).run ((t i).run s))

/-- Both prepared their change from `s`, and both commits went through, the one of `i` first. -/
structure BothCommit (t : Bool → Txn σ κ) (s s' : σ) (i : Bool) (k k' : κ) (s₁ : σ) : Prop where
  first : (t i).prepare s = some k
  committed : (t i).commit k s = some s₁
  second : (t !i).prepare s = some k'
  committedSecond : (t !i).commit k' s₁ = some s'

variable {t : Txn σ κ}

theorem run_of_none {s : σ} (h : t.prepare s = none) : t.run s = s := by
  simp [run, finish, h]

theorem run_of_some {s : σ} {k : κ} (h : t.prepare s = some k) :
    t.run s = (t.commit k s).getD s := by
  simp [run, finish, h]

/-- Both read, then `i` commits, then the other. -/
def overlapping (t : Bool → Txn σ κ) (i : Bool) (s : σ) : Play σ κ :=
  (Play.step t · (.commit !i)) (Play.step t ⟨s, fun j => (t j).prepare s, false⟩ (.commit i))

variable {ν : Type*}

theorem overlapping_cases (view : σ → ν) (t : Bool → Txn σ κ) (i : Bool) (s : σ) :
    (overlapping t i s).refused = true ∨ Serial view t s (overlapping t i s).store ∨
      ((overlapping t i s).refused = false ∧
        ∃ k k' s₁, BothCommit t s (overlapping t i s).store i k k' s₁) := by
  cases h1 : (t i).prepare s with
  | none =>
    -- the other runs alone
    have hrun := run_of_none h1
    cases h2 : (t !i).prepare s with
    | none =>
      refine .inr (.inl ⟨i, ?_⟩)
      simp [overlapping, Play.step, h1, h2, hrun, run_of_none h2]
    | some k' =>
      cases hc : (t !i).commit k' s with
      | none => exact .inl (by simp [overlapping, Play.step, h1, h2, hc])
      | some s' =>
        refine .inr (.inl ⟨i, ?_⟩)
        simp [overlapping, Play.step, h1, h2, hc, hrun, run_of_some h2]
  | some k =>
    cases hc1 : (t i).commit k s with
    | none =>
      cases h2 : (t !i).prepare s with
      | none => exact .inl (by simp [overlapping, Play.step, h1, h2, hc1])
      | some k' =>
        cases hc : (t !i).commit k' s with
        | none => exact .inl (by simp [overlapping, Play.step, h1, h2, hc1, hc])
        | some s' =>
          -- the first left nothing behind, so the second ran alone
          refine .inr (.inl ⟨i, ?_⟩)
          simp [overlapping, Play.step, h1, h2, hc1, hc, run_of_some h1, run_of_some h2]
    | some s₁ =>
      cases h2 : (t !i).prepare s with
      | none =>
        refine .inr (.inl ⟨!i, ?_⟩)
        simp [overlapping, Play.step, h1, h2, hc1, run_of_none h2, run_of_some h1]
      | some k' =>
        cases hc2 : (t !i).commit k' s₁ with
        | none => exact .inl (by simp [overlapping, Play.step, h1, h2, hc1, hc2])
        | some s₂ =>
          refine .inr (.inr ⟨by simp [overlapping, Play.step, h1, h2, hc1, hc2], k, k', s₁, h1, hc1,
            h2, ?_⟩)
          simp [overlapping, Play.step, h1, h2, hc1, hc2]

theorem store_readCommit (t : Bool → Txn σ κ) (p : Play σ κ) (i : Bool) :
    (Play.step t (Play.step t p (.read i)) (.commit i)).store = (t i).run p.store := by
  cases h : (t i).prepare p.store with
  | none => simp [Play.step, h, run_of_none h]
  | some k => cases hc : (t i).commit k p.store <;> simp [Play.step, h, hc, run_of_some h]

theorem step_reads (t : Bool → Txn σ κ) (i : Bool) (s : σ) :
    Play.step t (Play.step t ⟨s, fun _ => none, false⟩ (.read i)) (.read !i) =
      ⟨s, fun j => (t j).prepare s, false⟩ := by
  have hplan : Function.update (Function.update (fun _ => none) i ((t i).prepare s)) (!i)
      ((t !i).prepare s) = fun j => (t j).prepare s := by
    funext j
    cases i <;> cases j <;> rfl
  simp [Play.step, hplan]

variable {schedule : List Event}

theorem mem_schedules (h : schedule ∈ schedules) :
    (∃ i, schedule = [.read i, .commit i, .read !i, .commit !i]) ∨
      ∃ i j, schedule = [.read i, .read !i, .commit j, .commit !j] := by
  simp only [schedules, interleavings, List.map_cons, List.map_nil,
    List.cons_append, List.nil_append, List.mem_cons, List.not_mem_nil, or_false] at h
  rcases h with rfl | rfl | rfl | rfl | rfl | rfl
  · exact .inl ⟨false, rfl⟩
  · exact .inr ⟨false, false, rfl⟩
  · exact .inr ⟨false, true, rfl⟩
  · exact .inr ⟨true, false, rfl⟩
  · exact .inr ⟨true, true, rfl⟩
  · exact .inl ⟨true, rfl⟩

theorem play_cases (view : σ → ν) (t : Bool → Txn σ κ) (h : schedule ∈ schedules) (s : σ) :
    (play t schedule s).refused = true ∨ Serial view t s (play t schedule s).store ∨
      ((play t schedule s).refused = false ∧
        ∃ i k k' s₁, BothCommit t s (play t schedule s).store i k k' s₁) := by
  rcases mem_schedules h with ⟨i, rfl⟩ | ⟨i, j, rfl⟩
  · refine .inr (.inl ⟨i, ?_⟩)
    simp only [play, List.foldl_cons, List.foldl_nil, store_readCommit]
  · have hplay : play t [.read i, .read !i, .commit j, .commit !j] s = overlapping t j s := by
      simp only [play, List.foldl_cons, List.foldl_nil, step_reads]
      rfl
    rw [hplay]
    rcases overlapping_cases view t j s with h | h | ⟨h, h'⟩
    · exact .inl h
    · exact .inr (.inl h)
    · exact .inr (.inr ⟨h, j, h'⟩)

theorem serial_of_same (view : σ → ν) {t : Bool → Txn σ κ} {s s' s₁ : σ} {i : Bool}
    {k k' : κ} (h : BothCommit t s s' i k k' s₁) (hsame : (t !i).prepare s₁ = some k') :
    Serial view t s s' := by
  refine ⟨i, ?_⟩
  rw [run_of_some h.first, h.committed, Option.getD_some, run_of_some hsame, h.committedSecond]
  rfl

end Txn

end CommPlatform.Core
