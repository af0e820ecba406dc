import CommPlatform.Core.Runs
import Mathlib.Data.List.Perm.Basic
import Mathlib.Data.List.Nodup

/-!
# A versioned cell with one-time positions

Several writers share one cell. Each reads it, plans the next content
outside any transaction, and writes it back if the cell still has the id and
the version that were read; or it installs a cell of its own with a new id.
The content stands at a position `(k, n)` of a chain `k`, or at none. A plan
emits the position its content stood at and moves on, emits the first
position of a new chain, goes to a new chain without emitting, or leaves the
position as it is.
-/
namespace CommPlatform.Core.VersionedCell

open List (forall_mem_cons mem_cons)

variable {I S K : Type*}

structure Cell (I S : Type*) where
  id : I
  version : Nat
  state : S

inductive Effect (K : Type*)
  | continues (k : K) (n : Nat)
  | starts (k : K)
  | draws (k : K)
  | silent

namespace Effect

def emits : Effect K → Option (K × Nat)
  | .continues k n => some (k, n)
  | .starts k => some (k, 0)
  | .draws _ | .silent => none

def begins : Effect K → Option K
  | .starts k | .draws k => some k
  | .continues _ _ | .silent => none

end Effect

structure Plan (I S K : Type*) where
  read : Option (Cell I S)
  next : Cell I S
  effect : Effect K

/-- The plan leaves a cell of another id than it read. -/
def Plan.IsNew (p : Plan I S K) : Prop := ∀ c ∈ p.read, c.id ≠ p.next.id

structure Run (I S K : Type*) where
  cell : Option (Cell I S)
  plans : List (Plan I S K)
  emitted : List (K × Nat)

section Steps

variable (position : S → Option (K × Nat))

def chain (s : S) : Option K := (position s).map Prod.fst

/-- The plan does to the content what its effect says: if the next content stands at a position, it
is the one after the emitted one, the first of the new chain, or the one it stood at. -/
def Plan.Made (p : Plan I S K) : Prop :=
  match p.effect with
  | .continues k n => ∃ c, p.read = some c ∧ c.id = p.next.id ∧ position c.state = some (k, n) ∧
      ∀ q, position p.next.state = some q → q = (k, n + 1)
  | .starts k => ∀ q, position p.next.state = some q → q = (k, 1)
  | .draws k => ∀ q, position p.next.state = some q → q = (k, 0)
  | .silent => ∀ q, position p.next.state = some q →
      ∃ c, p.read = some c ∧ c.id = p.next.id ∧ position c.state = some q

/-- The id is not the one of the cell, nor of one that a plan read or leaves. -/
def Run.FreshId (r : Run I S K) (i : I) : Prop :=
  (∀ c ∈ r.cell, c.id ≠ i) ∧ ∀ q ∈ r.plans, q.next.id ≠ i ∧ ∀ c ∈ q.read, c.id ≠ i

/-- Nothing of the chain was emitted, the cell is not on it, and no plan read or begins it. -/
def Run.FreshChain (r : Run I S K) (k : K) : Prop :=
  (∀ n, (k, n) ∉ r.emitted) ∧ (∀ c ∈ r.cell, chain position c.state ≠ some k) ∧
    ∀ q ∈ r.plans, q.effect.begins ≠ some k ∧ ∀ c ∈ q.read, chain position c.state ≠ some k

inductive Step : Run I S K → Run I S K → Prop
  | plan {r : Run I S K} {p : Plan I S K} (hread : p.read = r.cell) (hmade : p.Made position)
      (hid : p.IsNew → r.FreshId p.next.id)
      (hchain : ∀ k, p.effect.begins = some k → r.FreshChain position k) :
      Step r { r with plans := p :: r.plans }
  | replace {r : Run I S K} {p : Plan I S K} {rest : List (Plan I S K)} {c c₀ : Cell I S}
      (hp : r.plans.Perm (p :: rest)) (hc : r.cell = some c) (hread : p.read = some c₀)
      (hid : c.id = c₀.id) (hversion : c.version = c₀.version)
      (hnext : c.version < p.next.version) :
      Step r ⟨some p.next, rest, p.effect.emits.toList ++ r.emitted⟩
  | install {r : Run I S K} {p : Plan I S K} {rest : List (Plan I S K)}
      (hp : r.plans.Perm (p :: rest)) (hnew : p.IsNew) :
      Step r ⟨some p.next, rest, p.effect.emits.toList ++ r.emitted⟩
  | drop {r : Run I S K} {p : Plan I S K} {rest : List (Plan I S K)}
      (hp : r.plans.Perm (p :: rest)) : Step r { r with plans := rest }
  | stop {r : Run I S K} : Step r { r with plans := [] }
  | clear {r : Run I S K} : Step r { r with cell := none }

def system : System (Run I S K) where
  init r := r.cell = none ∧ r.plans = [] ∧ r.emitted = []
  step := Step position

end Steps

/-! ## The invariant -/

/-- Two plans that may both go through leave different ids and begin different chains. -/
def Plan.Apart (p q : Plan I S K) : Prop :=
  (p.IsNew → q.IsNew → p.next.id ≠ q.next.id) ∧
    ∀ k, p.effect.begins = some k → q.effect.begins ≠ some k

theorem Plan.Apart.symm {p q : Plan I S K} (h : p.Apart q) : q.Apart p :=
  ⟨fun hq hp heq => h.1 hp hq heq.symm, fun k hq hp => h.2 k hp hq⟩

variable {position : S → Option (K × Nat)} {r : Run I S K} {p : Plan I S K}

/-- The invariant. A cell that still has the id and the version a plan read has the content it
read; a position the content stands at is past every emitted one of its chain. -/
structure Inv (position : S → Option (K × Nat)) (r : Run I S K) : Prop where
  made : ∀ p ∈ r.plans, p.Made position
  apart : r.plans.Pairwise Plan.Apart
  idNotCell : ∀ p ∈ r.plans, p.IsNew → ∀ c ∈ r.cell, c.id ≠ p.next.id
  idNotRead : ∀ p ∈ r.plans, p.IsNew → ∀ q ∈ r.plans, ∀ c ∈ q.read, c.id ≠ p.next.id
  chainNotEmitted : ∀ p ∈ r.plans, ∀ k, p.effect.begins = some k → ∀ n, (k, n) ∉ r.emitted
  chainNotCell : ∀ p ∈ r.plans, ∀ k, p.effect.begins = some k →
    ∀ c ∈ r.cell, chain position c.state ≠ some k
  chainNotRead : ∀ p ∈ r.plans, ∀ k, p.effect.begins = some k →
    ∀ q ∈ r.plans, ∀ c ∈ q.read, chain position c.state ≠ some k
  current : ∀ p ∈ r.plans, ∀ c₀ ∈ p.read, ∀ c ∈ r.cell, c.id = c₀.id →
    c₀.version ≤ c.version ∧ (c₀.version = c.version → c₀.state = c.state)
  passed : ∀ c ∈ r.cell, ∀ k n, position c.state = some (k, n) → ∀ m, (k, m) ∈ r.emitted → m < n
  nodup : r.emitted.Nodup

variable (hi : Inv position r)
include hi

theorem Inv.plan (hread : p.read = r.cell)
    (hmade : p.Made position) (hid : p.IsNew → r.FreshId p.next.id)
    (hchain : ∀ k, p.effect.begins = some k → r.FreshChain position k) :
    Inv position { r with plans := p :: r.plans } where
  made := forall_mem_cons.mpr ⟨hmade, hi.made⟩
  apart := List.pairwise_cons.mpr ⟨fun q hq =>
    ⟨fun hp _ => (((hid hp).2 q hq).1).symm, fun k hk => ((hchain k hk).2.2 q hq).1⟩, hi.apart⟩
  idNotCell := forall_mem_cons.mpr ⟨fun hp => (hid hp).1, hi.idNotCell⟩
  idNotRead := by
    refine forall_mem_cons.mpr ⟨fun hp => ?_, fun q hq hnew => ?_⟩
    · exact forall_mem_cons.mpr ⟨hp, fun q hq => ((hid hp).2 q hq).2⟩
    · refine forall_mem_cons.mpr ⟨?_, hi.idNotRead q hq hnew⟩
      rw [hread]
      exact hi.idNotCell q hq hnew
  chainNotEmitted := forall_mem_cons.mpr ⟨fun k hk => (hchain k hk).1, hi.chainNotEmitted⟩
  chainNotCell := forall_mem_cons.mpr ⟨fun k hk => (hchain k hk).2.1, hi.chainNotCell⟩
  chainNotRead := by
    refine forall_mem_cons.mpr ⟨fun k hk => ?_, fun q hq k hk => ?_⟩
    · refine forall_mem_cons.mpr ⟨?_, fun q hq => ((hchain k hk).2.2 q hq).2⟩
      rw [hread]
      exact (hchain k hk).2.1
    · refine forall_mem_cons.mpr ⟨?_, hi.chainNotRead q hq k hk⟩
      rw [hread]
      exact hi.chainNotCell q hq k hk
  current := by
    refine forall_mem_cons.mpr ⟨fun c₀ hc₀ c hc _ => ?_, hi.current⟩
    rw [hread] at hc₀
    cases Option.mem_unique hc₀ hc
    exact ⟨Nat.le_refl _, fun _ => rfl⟩
  passed := hi.passed
  nodup := hi.nodup

theorem Inv.rest {rest : List (Plan I S K)}
    (hp : r.plans.Perm (p :: rest)) : Inv position { r with plans := rest } := by
  have hsub : ∀ q ∈ rest, q ∈ r.plans := fun q hq => hp.mem_iff.mpr (List.mem_cons_of_mem _ hq)
  exact {
    made := fun q hq => hi.made q (hsub q hq)
    apart := ((hp.pairwise_iff Plan.Apart.symm).mp hi.apart).of_cons
    idNotCell := fun q hq => hi.idNotCell q (hsub q hq)
    idNotRead := fun q hq hnew q' hq' => hi.idNotRead q (hsub q hq) hnew q' (hsub q' hq')
    chainNotEmitted := fun q hq => hi.chainNotEmitted q (hsub q hq)
    chainNotCell := fun q hq => hi.chainNotCell q (hsub q hq)
    chainNotRead := fun q hq k hk q' hq' => hi.chainNotRead q (hsub q hq) k hk q' (hsub q' hq')
    current := fun q hq => hi.current q (hsub q hq)
    passed := hi.passed
    nodup := hi.nodup }

theorem Inv.stop : Inv position { r with plans := [] } :=
  { hi with
    made := nofun
    apart := .nil
    idNotCell := nofun
    idNotRead := nofun
    chainNotEmitted := nofun
    chainNotCell := nofun
    chainNotRead := nofun
    current := nofun }

theorem Inv.clear : Inv position { r with cell := none } :=
  { hi with
    idNotCell := fun _ _ _ => nofun
    chainNotCell := fun _ _ _ _ => nofun
    current := fun _ _ _ _ => nofun
    passed := nofun }

/-- What a plan emits is new, and its content stands past all that was emitted, if the plan leaves
a new id or the cell still is what it read. The chain it stands on is the one read or a new one. -/
theorem Inv.emits (hp : p ∈ r.plans)
    (hsame : p.IsNew ∨ ∃ c ∈ r.cell, ∃ c₀ ∈ p.read, c₀.state = c.state) :
    (p.effect.emits.toList ++ r.emitted).Nodup ∧
      ∀ k n, position p.next.state = some (k, n) →
        (p.effect.begins = some k ∨ ∃ c ∈ p.read, chain position c.state = some k) ∧
        ∀ m, (k, m) ∈ p.effect.emits.toList ++ r.emitted → m < n := by
  have hmade := hi.made p hp
  unfold Plan.Made at hmade
  -- the cell that a continuing plan read is the cell as it is
  have hcell : ∀ c₀ ∈ p.read, c₀.id = p.next.id → ∃ c ∈ r.cell, c₀.state = c.state := by
    intro c₀ hc₀ hid
    rcases hsame with hnew | ⟨c, hc, c₁, hc₁, hstate⟩
    · exact absurd hid (hnew c₀ hc₀)
    · cases Option.mem_unique hc₀ hc₁
      exact ⟨c, hc, hstate⟩
  have hfresh := hi.chainNotEmitted p hp
  cases heff : p.effect with
  | continues k n =>
    simp only [heff] at hmade
    obtain ⟨c₀, hc₀, hid, hpos, hnext⟩ := hmade
    obtain ⟨c, hc, hstate⟩ := hcell c₀ hc₀ hid
    have hpast := hi.passed c hc k n (hstate ▸ hpos)
    refine ⟨List.nodup_cons.mpr ⟨fun hmem => Nat.lt_irrefl n (hpast n hmem), hi.nodup⟩, ?_⟩
    intro k' n' hk
    cases hnext _ hk
    refine ⟨.inr ⟨c₀, hc₀, by simp [chain, hpos]⟩, fun m hm => ?_⟩
    rcases mem_cons.mp hm with heq | hm
    · cases heq
      exact Nat.lt_succ_self n
    · exact Nat.lt_succ_of_lt (hpast m hm)
  | starts k =>
    simp only [heff] at hmade
    rw [heff] at hfresh
    refine ⟨List.nodup_cons.mpr ⟨hfresh k rfl 0, hi.nodup⟩, ?_⟩
    intro k' n' hk
    cases hmade _ hk
    refine ⟨.inl rfl, fun m hm => ?_⟩
    rcases mem_cons.mp hm with heq | hm
    · cases heq
      exact Nat.zero_lt_one
    · exact absurd hm (hfresh k rfl m)
  | draws k =>
    simp only [heff] at hmade
    rw [heff] at hfresh
    refine ⟨hi.nodup, fun k' n' hk => ?_⟩
    cases hmade _ hk
    exact ⟨.inl rfl, fun m hm => absurd hm (hfresh k rfl m)⟩
  | silent =>
    simp only [heff] at hmade
    refine ⟨hi.nodup, fun k n hk => ?_⟩
    obtain ⟨c₀, hc₀, hid, hpos⟩ := hmade _ hk
    obtain ⟨c, hc, hstate⟩ := hcell c₀ hc₀ hid
    exact ⟨.inr ⟨c₀, hc₀, by simp [chain, hpos]⟩, hi.passed c hc k n (hstate ▸ hpos)⟩

omit hi

theorem Plan.Made.emits_chain (h : p.Made position) {k : K} {n : Nat}
    (he : (k, n) ∈ p.effect.emits.toList) :
    p.effect.begins = some k ∨ ∃ c ∈ p.read, chain position c.state = some k := by
  unfold Plan.Made at h
  cases heff : p.effect with
  | continues k' n' =>
    simp only [heff, Effect.emits, Option.toList_some, List.mem_singleton] at he h
    cases he
    obtain ⟨c, hc, -, hpos, -⟩ := h
    exact .inr ⟨c, hc, by simp [chain, hpos]⟩
  | starts k' =>
    simp only [heff, Effect.emits, Option.toList_some, List.mem_singleton] at he
    cases he
    exact .inl rfl
  | draws | silent => simp [heff, Effect.emits] at he

theorem Inv.commit (hi : Inv position r) {rest : List (Plan I S K)} (hp : r.plans.Perm (p :: rest))
    (hsame : p.IsNew ∨ ∃ c ∈ r.cell, ∃ c₀ ∈ p.read, c₀.state = c.state ∧ c.id = c₀.id ∧
      c.version < p.next.version) :
    Inv position ⟨some p.next, rest, p.effect.emits.toList ++ r.emitted⟩ := by
  have hmem := hp.mem_iff.mpr (List.mem_cons_self ..)
  have hsub : ∀ q ∈ rest, q ∈ r.plans := fun q hq => hp.mem_iff.mpr (List.mem_cons_of_mem _ hq)
  have happ := List.pairwise_cons.mp ((hp.pairwise_iff Plan.Apart.symm).mp hi.apart)
  obtain ⟨hnodup, hpast⟩ := hi.emits hmem (hsame.imp_right fun ⟨c, hc, c₀, hc₀, h, _⟩ =>
    ⟨c, hc, c₀, hc₀, h⟩)
  -- a chain that `p` begins or read is not one that another plan begins
  have hother : ∀ q ∈ rest, ∀ k, q.effect.begins = some k →
      ¬ (p.effect.begins = some k ∨ ∃ c ∈ p.read, chain position c.state = some k) := by
    rintro q hq k hk (hb | ⟨c, hc, hchain⟩)
    · exact (happ.1 q hq).2 k hb hk
    · exact hi.chainNotRead q (hsub q hq) k hk p hmem c hc hchain
  exact { hi.rest hp with
    idNotCell := by
      intro q hq hnew c hc
      cases hc
      by_cases hpn : p.IsNew
      · exact (happ.1 q hq).1 hpn hnew
      · -- an updated cell keeps its id
        simp only [Plan.IsNew, not_forall, not_not] at hpn
        obtain ⟨c₁, hc₁, hid⟩ := hpn
        rw [← hid]
        exact hi.idNotRead q (hsub q hq) hnew p hmem c₁ hc₁
    chainNotEmitted := by
      intro q hq k hk n hn
      rcases List.mem_append.mp hn with hn | hn
      · exact hother q hq k hk ((hi.made p hmem).emits_chain hn)
      · exact hi.chainNotEmitted q (hsub q hq) k hk n hn
    chainNotCell := by
      intro q hq k hk c hc hchain
      cases hc
      obtain ⟨⟨k', n⟩, hpos, rfl⟩ := Option.map_eq_some_iff.mp hchain
      exact hother q hq k' hk (hpast k' n hpos).1
    current := by
      intro q hq c₀ hc₀ c hc hid
      cases hc
      by_cases hpn : p.IsNew
      · exact absurd hid.symm (hi.idNotRead p hmem hpn q (hsub q hq) c₀ hc₀)
      · obtain ⟨c₁, hc₁, c₂, hc₂, -, hid', hlt⟩ := hsame.resolve_left hpn
        simp only [Plan.IsNew, not_forall, not_not] at hpn
        obtain ⟨c₃, hc₃, hid₃⟩ := hpn
        cases Option.mem_unique hc₂ hc₃
        have hle := (hi.current q (hsub q hq) c₀ hc₀ c₁ hc₁ (hid'.trans (hid₃.trans hid))).1
        exact ⟨by omega, fun h => by omega⟩
    passed := by
      intro c hc k n hpos
      cases hc
      exact (hpast k n hpos).2
    nodup := hnodup }

theorem inv_inductive : (system position).Inductive (Inv (I := I) position) where
  init := by
    rintro r ⟨hc, hp, he⟩
    constructor <;> simp [hc, hp, he]
  step := by
    intro r r' hi hstep
    cases hstep with
    | plan hread hmade hid hchain => exact hi.plan hread hmade hid hchain
    | @replace p rest c c₀ hp hc hread hid hversion hnext =>
      have hmem := hp.mem_iff.mpr (List.mem_cons_self ..)
      have hstate := (hi.current p hmem c₀ hread c hc hid).2 hversion.symm
      exact hi.commit hp (.inr ⟨c, hc, c₀, hread, hstate, hid, hnext⟩)
    | install hp hnew => exact hi.commit hp (.inl hnew)
    | drop hp => exact hi.rest hp
    | stop => exact hi.stop
    | clear => exact hi.clear

theorem emitted_nodup (h : (system position).Reachable r) : r.emitted.Nodup :=
  (inv_inductive.reachable h).nodup

end CommPlatform.Core.VersionedCell
