import CommPlatform.Core.Outcome

/-!
# Chains of control events

A replica holds the head of a chain: the id of the chain, the revision it
reached and the hash it reached it with. An event names its chain, its
revision, the hash it builds on and the hash it leads to. `Head.place` is
where an event stands relative to a head, and a `ControlMachine` says what a
replica does with an event by its place.

Two replicas that hold the same head may still disagree about an event, if
what they hold besides the head counts. `Lockstep` collects what two machines
have to agree on step by step; `Lockstep.agree_iff` says that their runs agree
exactly as long as no event that extends the chain splits them.

A `History` is a list of events that were accepted one after the other. When
the head of a state is the event that led to it (`Tracks`), the events of a
history are numbered by their position, each naming the hash of the one before
it (`History.head`, `History.linked`).
-/
namespace CommPlatform.Core

variable {ι η σ ε ρ : Type}

structure Head (ι η : Type) where
  id : ι
  revision : Nat
  hash : η
deriving DecidableEq

structure Link (ι η : Type) where
  id : ι
  revision : Nat
  previous : Option η
  hash : η

/-- Where an event stands relative to a head. -/
inductive Place
  | foreign
  | duplicate
  | sibling
  | stale
  | ahead
  | next
deriving DecidableEq

section Place

variable [DecidableEq ι] [DecidableEq η]

def Head.place (h : Head ι η) (l : Link ι η) : Place :=
  if l.id ≠ h.id then .foreign
  else if l.revision = h.revision then
    if l.hash = h.hash then .duplicate else .sibling
  else if l.revision < h.revision then .stale
  else if l.revision > h.revision + 1 then .ahead
  else if l.previous ≠ some h.hash then .sibling
  else .next

variable {l : Link ι η} {h : Head ι η}

theorem Head.place_eq_next :
    h.place l = .next ↔ l.id = h.id ∧ l.revision = h.revision + 1 ∧ l.previous = some h.hash := by
  unfold Head.place
  constructor
  · intro hplace
    split_ifs at hplace with hid h2 h3 h4 h5 hprevious
    exact ⟨not_not.mp hid, by omega, not_not.mp hprevious⟩
  · rintro ⟨hid, hrevision, hprevious⟩
    rw [if_neg (not_not.mpr hid), if_neg (by omega), if_neg (by omega), if_neg (by omega),
      if_neg (not_not.mpr hprevious)]

theorem Head.eq_of_next {h' : Head ι η} (hnext : h.place l = .next) (hnext' : h'.place l = .next) :
    h = h' := by
  obtain ⟨hid, hrevision, hprevious⟩ := Head.place_eq_next.mp hnext
  obtain ⟨hid', hrevision', hprevious'⟩ := Head.place_eq_next.mp hnext'
  cases h
  cases h'
  simp_all

theorem Head.place_eq_sibling :
    h.place l = .sibling ↔ l.id = h.id ∧ (l.revision = h.revision ∧ l.hash ≠ h.hash ∨
      l.revision = h.revision + 1 ∧ l.previous ≠ some h.hash) := by
  grind [Head.place]

theorem Head.place_eq_stale : h.place l = .stale ↔ l.id = h.id ∧ l.revision < h.revision := by
  grind [Head.place]

end Place

/-! ## Links -/

/-- Links of one chain, from the one after `revision`, which ended in `hash`. -/
def Linked (id : ι) : Nat → Option η → List (Link ι η) → Prop
  | _, _, [] => True
  | revision, hash, l :: rest => l.id = id ∧ l.revision = revision + 1 ∧ l.previous = hash ∧
      Linked id (revision + 1) (some l.hash) rest

/-- The hash a chain ended in after its first `n` links. -/
def hashAt (links : List (Link ι η)) (n : Nat) : Option η :=
  if n = 0 then none else (links[n - 1]?).map (·.hash)

section Linked

variable {id : ι} {revision n : Nat} {hash : Option η} {links : List (Link ι η)}

theorem Linked.revision_of_mem (h : Linked id revision hash links) {l : Link ι η}
    (hl : l ∈ links) : l.id = id ∧ revision < l.revision ∧ l.revision ≤ revision + links.length := by
  induction links generalizing revision hash with
  | nil => cases hl
  | cons a links ih =>
    obtain ⟨hid, hrevision, -, hrest⟩ := h
    rw [List.length_cons]
    obtain rfl | hl := List.mem_cons.mp hl
    · exact ⟨hid, by omega, by omega⟩
    · obtain ⟨hid', hlt, hle⟩ := ih hrest hl
      exact ⟨hid', by omega, by omega⟩

theorem Linked.filter_revision {f : ε → Link ι η} {events : List ε}
    (h : Linked id revision hash (events.map f)) (n : Nat) :
    events.filter (fun e => (f e).revision > n) = events.drop (n - revision) := by
  induction events generalizing revision hash with
  | nil => simp
  | cons a events ih =>
    obtain ⟨-, hrevision, -, hrest⟩ := h
    by_cases hn : (f a).revision > n
    · rw [List.filter_cons_of_pos (by simpa using hn), ih hrest, show n - (revision + 1) = 0 by omega,
        show n - revision = 0 by omega, List.drop_zero, List.drop_zero]
    · rw [List.filter_cons_of_neg (by simpa using hn), ih hrest,
        show n - revision = (n - (revision + 1)) + 1 by omega, List.drop_succ_cons]

/-- Linked lists are told by position. -/
theorem linked_iff : Linked id revision hash links ↔ ∀ i l, links[i]? = some l →
    l.id = id ∧ l.revision = revision + i + 1 ∧
      l.previous = if i = 0 then hash else (links[i - 1]?).map (·.hash) := by
  induction links generalizing revision hash with
  | nil => simp [Linked]
  | cons a links ih =>
    rw [Linked, ih]
    constructor
    · rintro ⟨hid, hrevision, hprevious, hrest⟩ i l hl
      cases i with
      | zero =>
        obtain rfl : a = l := by simpa using hl
        exact ⟨hid, by omega, by simpa using hprevious⟩
      | succ i =>
        obtain ⟨hid', hrevision', hprevious'⟩ := hrest i l (by simpa using hl)
        refine ⟨hid', by omega, ?_⟩
        rw [hprevious', Nat.add_sub_cancel]
        cases i <;> simp
    · intro h
      obtain ⟨hid, hrevision, hprevious⟩ := h 0 a rfl
      refine ⟨hid, by omega, by simpa using hprevious, fun i l hl => ?_⟩
      obtain ⟨hid', hrevision', hprevious'⟩ := h (i + 1) l (by simpa using hl)
      refine ⟨hid', by omega, ?_⟩
      rw [hprevious', Nat.add_sub_cancel]
      cases i <;> simp

theorem Linked.drop (h : Linked id 0 none links) (n : Nat) :
    Linked id n (hashAt links n) (links.drop n) := by
  rw [linked_iff] at h ⊢
  intro i l hl
  rw [List.getElem?_drop] at hl
  obtain ⟨hid, hrevision, hprevious⟩ := h (n + i) l hl
  refine ⟨hid, by omega, ?_⟩
  rw [hprevious]
  cases i with
  | zero => simp [hashAt]
  | succ i =>
    rw [if_neg (by omega), if_neg (by omega), List.getElem?_drop, Nat.add_sub_cancel,
      show n + (i + 1) - 1 = n + i by omega]

theorem Linked.take (h : Linked id revision hash links) (n : Nat) :
    Linked id revision hash (links.take n) := by
  induction links generalizing revision hash n with
  | nil => rw [List.take_nil]; trivial
  | cons a links ih =>
    obtain ⟨hid, hrevision, hprevious, hrest⟩ := h
    cases n with
    | zero => trivial
    | succ n => exact ⟨hid, hrevision, hprevious, ih hrest n⟩

end Linked

/-- What an event comes to. -/
inductive Applied (σ ρ : Type)
  | accepted (state : σ)
  | duplicate (state : σ)
  | stale (state : σ)
  | ahead (state : Option σ)
  | quarantined (state : Option σ) (reason : ρ)
deriving DecidableEq

/-- The same without the states. -/
inductive Verdict (ρ : Type)
  | accepted
  | duplicate
  | stale
  | ahead
  | quarantined (reason : ρ)
deriving DecidableEq

def Applied.verdict : Applied σ ρ → Verdict ρ
  | .accepted _ => .accepted
  | .duplicate _ => .duplicate
  | .stale _ => .stale
  | .ahead _ => .ahead
  | .quarantined _ reason => .quarantined reason

def Applied.after (previous : Option σ) : Applied σ ρ → Option σ
  | .accepted state => some state
  | _ => previous

/-- A replica: `create` makes a state of a first event, `extend` of an event that follows the head;
both may refuse with a reason. -/
structure ControlMachine (ι η σ ε ρ : Type) where
  head : σ → Head ι η
  link : ε → Link ι η
  create : ε → Except ρ σ
  extend : σ → ε → Except ρ σ
  brokenChain : ρ
  siblingControl : ρ

namespace ControlMachine

variable [DecidableEq ι] [DecidableEq η]

def apply (M : ControlMachine ι η σ ε ρ) (previous : Option σ) (e : ε) : Applied σ ρ :=
  match previous with
  | none =>
    if (M.link e).revision = 1 then
      match M.create e with
      | .ok state => .accepted state
      | .error reason => .quarantined none reason
    else .ahead none
  | some s =>
    match (M.head s).place (M.link e) with
    | .foreign => .quarantined (some s) M.brokenChain
    | .duplicate => .duplicate s
    | .sibling => .quarantined (some s) M.siblingControl
    | .stale => .stale s
    | .ahead => .ahead (some s)
    | .next =>
      match M.extend s e with
      | .ok state => .accepted state
      | .error reason => .quarantined (some s) reason

/-- The verdicts over a sequence of events, and the state at its end. -/
def fold (M : ControlMachine ι η σ ε ρ) : Option σ → List ε → List (Verdict ρ) × Option σ
  | previous, [] => ([], previous)
  | previous, e :: events =>
    let applied := M.apply previous e
    let (verdicts, last) := M.fold (applied.after previous) events
    (applied.verdict :: verdicts, last)

def accepted (M : ControlMachine ι η σ ε ρ) : Option σ → List ε → List ε
  | _, [] => []
  | previous, e :: events =>
    match M.apply previous e with
    | .accepted s => e :: M.accepted (some s) events
    | _ => M.accepted previous events

variable {M N : ControlMachine ι η σ ε ρ} {previous : Option σ} {e : ε}

theorem apply_accepted {s' : σ} (h : M.apply previous e = .accepted s') :
    (previous = none ∧ (M.link e).revision = 1 ∧ M.create e = .ok s') ∨
      ∃ s, previous = some s ∧ (M.head s).place (M.link e) = .next ∧ M.extend s e = .ok s' := by
  unfold apply at h
  cases previous with
  | none =>
    left
    dsimp only at h
    split at h
    · next hrevision =>
      split at h
      · next state hcreate =>
        obtain rfl := Applied.accepted.inj h
        exact ⟨rfl, hrevision, hcreate⟩
      · cases h
    · cases h
  | some s =>
    right
    dsimp only at h
    split at h <;> try cases h
    next hplace =>
    split at h
    · next state hextend =>
      obtain rfl := Applied.accepted.inj h
      exact ⟨s, rfl, hplace, hextend⟩
    · cases h

theorem apply_stale {t : σ} (h : M.apply previous e = .stale t) :
    ∃ s, previous = some s ∧ (M.head s).place (M.link e) = .stale := by
  unfold apply at h
  cases previous with
  | none =>
    dsimp only at h
    split at h
    · split at h <;> cases h
    · cases h
  | some s =>
    dsimp only at h
    refine ⟨s, rfl, ?_⟩
    split at h <;> try cases h
    · next hplace => exact hplace
    · split at h <;> cases h

theorem apply_quarantined {q : Option σ} {r : ρ} (h : M.apply previous e = .quarantined q r) :
    (previous = none ∧ q = none) ∨ ∃ s, previous = some s ∧ q = some s ∧
      ((M.head s).place (M.link e) = .foreign ∧ r = M.brokenChain ∨
        (M.head s).place (M.link e) = .sibling ∧ r = M.siblingControl ∨
        (M.head s).place (M.link e) = .next ∧ M.extend s e = .error r) := by
  unfold apply at h
  cases previous with
  | none =>
    left
    dsimp only at h
    split at h
    · split at h <;> cases h
      exact ⟨rfl, rfl⟩
    · cases h
  | some s =>
    right
    dsimp only at h
    refine ⟨s, rfl, ?_⟩
    split at h
    · next hplace =>
      cases h
      exact ⟨rfl, .inl ⟨hplace, rfl⟩⟩
    · cases h
    · next hplace =>
      cases h
      exact ⟨rfl, .inr (.inl ⟨hplace, rfl⟩)⟩
    · cases h
    · cases h
    · next hplace =>
      split at h
      · cases h
      · next reason herror =>
        cases h
        exact ⟨rfl, .inr (.inr ⟨hplace, herror⟩)⟩

theorem apply_of_next {s s' : σ} (h : (M.head s).place (M.link e) = .next)
    (hs' : M.extend s e = .ok s') : M.apply (some s) e = .accepted s' := by
  unfold apply
  dsimp only
  rw [h]
  dsimp only
  rw [hs']

theorem apply_of_stale {s : σ} (h : (M.head s).place (M.link e) = .stale) :
    M.apply (some s) e = .stale s := by
  unfold apply
  dsimp only
  rw [h]

theorem apply_of_sibling {s : σ} (h : (M.head s).place (M.link e) = .sibling) :
    M.apply (some s) e = .quarantined (some s) M.siblingControl := by
  unfold apply
  dsimp only
  rw [h]

/-- Both refuse for the same reason, or both give related states. -/
def SameResult (R : σ → σ → Prop) : Except ρ σ → Except ρ σ → Prop
  | .ok s, .ok t => R s t
  | .error r, .error r' => r = r'
  | _, _ => False

/-- Two machines whose states `R` relates, that decide alike on every event except where `Split`. -/
structure Lockstep (M N : ControlMachine ι η σ ε ρ) (R : σ → σ → Prop) (Split : σ → ε → Prop) :
    Prop where
  link : M.link = N.link
  brokenChain : M.brokenChain = N.brokenChain
  siblingControl : M.siblingControl = N.siblingControl
  head : ∀ {s t}, R s t → M.head s = N.head t
  create : ∀ e, SameResult R (M.create e) (N.create e)
  extend : ∀ {s t e}, R s t → (M.head s).place (M.link e) = .next → ¬ Split s e →
    SameResult R (M.extend s e) (N.extend t e)
  split : ∀ {s t e}, R s t → (M.head s).place (M.link e) = .next → Split s e →
    (M.extend s e).isOk ≠ (N.extend t e).isOk

/-- No event that extends the chain splits the replicas. -/
def NoSplit (M : ControlMachine ι η σ ε ρ) (Split : σ → ε → Prop) : Option σ → List ε → Prop
  | _, [] => True
  | previous, e :: events =>
    (∀ s, previous = some s → (M.head s).place (M.link e) = .next → ¬ Split s e) ∧
      NoSplit M Split ((M.apply previous e).after previous) events

variable {p : Option σ}

theorem noSplit_false (events : List ε) : NoSplit M (fun _ _ => False) p events := by
  induction events generalizing p with
  | nil => trivial
  | cons e events ih => exact ⟨fun _ _ _ => id, ih⟩

theorem rel_mono {R Q : σ → σ → Prop} (himp : ∀ {s t}, R s t → Q s t) {p q : Option σ}
    (h : Option.Rel R p q) : Option.Rel Q p q := by
  cases h with
  | none => exact .none
  | some h => exact .some (himp h)

section Agreement

variable {R : σ → σ → Prop} {Split : σ → ε → Prop} {p q : Option σ} {e : ε}
  (h : Lockstep M N R Split)
include h

theorem Lockstep.same (hpq : Option.Rel R p q)
    (hsplit : ∀ s, p = some s → (M.head s).place (M.link e) = .next → ¬ Split s e) :
    (M.apply p e).verdict = (N.apply q e).verdict ∧
      Option.Rel R ((M.apply p e).after p) ((N.apply q e).after q) := by
  cases hpq with
  | none =>
    have hcreate := h.create e
    unfold apply
    dsimp only
    rw [← h.link]
    split
    · cases hm : M.create e <;> cases hn : N.create e <;> rw [hm, hn] at hcreate
      · exact ⟨congrArg Verdict.quarantined hcreate, .none⟩
      · cases hcreate
      · cases hcreate
      · exact ⟨rfl, .some hcreate⟩
    · exact ⟨rfl, .none⟩
  | @some s t hst =>
    have hhead := h.head hst
    unfold apply
    dsimp only
    rw [← h.link, ← hhead, ← h.brokenChain, ← h.siblingControl]
    cases hplace : (M.head s).place (M.link e) with
    | next =>
      have hextend := h.extend hst hplace (hsplit s rfl hplace)
      cases hm : M.extend s e <;> cases hn : N.extend t e <;> rw [hm, hn] at hextend
      · exact ⟨congrArg Verdict.quarantined hextend, .some hst⟩
      · cases hextend
      · cases hextend
      · exact ⟨rfl, .some hextend⟩
    | _ => exact ⟨rfl, .some hst⟩

theorem Lockstep.differ {s t : σ} (hst : R s t)
    (hplace : (M.head s).place (M.link e) = .next) (hsplit : Split s e) :
    (M.apply (some s) e).verdict ≠ (N.apply (some t) e).verdict := by
  have hok := h.split hst hplace hsplit
  unfold apply
  dsimp only
  rw [← h.link, ← h.head hst, hplace]
  cases hm : M.extend s e <;> cases hn : N.extend t e <;> rw [hm, hn] at hok
  · exact absurd rfl hok
  · exact nofun
  · exact nofun
  · exact absurd rfl hok

/-- The runs of two replicas agree exactly as long as nothing splits them. -/
theorem Lockstep.agree_iff (events : List ε) (hpq : Option.Rel R p q) :
    (M.fold p events).1 = (N.fold q events).1 ∧
      Option.Rel R (M.fold p events).2 (N.fold q events).2 ↔ NoSplit M Split p events := by
  induction events generalizing p q with
  | nil => exact ⟨fun _ => trivial, fun _ => ⟨rfl, hpq⟩⟩
  | cons e events ih =>
    constructor
    · rintro ⟨hverdicts, hlast⟩
      obtain ⟨hverdict, hverdicts⟩ := List.cons.inj hverdicts
      have hsplit : ∀ s, p = some s → (M.head s).place (M.link e) = .next → ¬ Split s e := by
        rintro s rfl hplace hsplit
        obtain ⟨hst⟩ := hpq
        exact h.differ hst hplace hsplit hverdict
      exact ⟨hsplit, (ih (h.same hpq hsplit).2).mp ⟨hverdicts, hlast⟩⟩
    · rintro ⟨hsplit, hrest⟩
      obtain ⟨hverdict, hnext⟩ := h.same hpq hsplit
      obtain ⟨hverdicts, hlast⟩ := (ih hnext).mpr hrest
      exact ⟨congrArg₂ List.cons hverdict hverdicts, hlast⟩

end Agreement

/-- What every accepted event keeps holds at the end of every run. -/
theorem fold_invariant {I : σ → Prop} (hcreate : ∀ {e s}, M.create e = .ok s → I s)
    (hextend : ∀ {s e s'}, I s → (M.head s).place (M.link e) = .next → M.extend s e = .ok s' → I s')
    (events : List ε) (hp : ∀ s, p = some s → I s) :
    ∀ s, (M.fold p events).2 = some s → I s := by
  induction events generalizing p with
  | nil => exact hp
  | cons e events ih =>
    refine ih fun s hs => ?_
    cases hm : M.apply p e with
    | accepted s' =>
      rw [hm] at hs
      cases hs
      obtain ⟨-, -, hs'⟩ | ⟨s, rfl, hplace, hs'⟩ := apply_accepted hm
      · exact hcreate hs'
      · exact hextend (hp s rfl) hplace hs'
    | _ =>
      rw [hm] at hs
      exact hp s hs

/-! ## Histories -/

variable (M) in
/-- `events` were accepted one after the other, from nothing to `p`. -/
inductive History : List ε → Option σ → Prop
  | nil : History [] none
  | snoc {events : List ε} {p : Option σ} {e : ε} {s : σ} (h : History events p)
      (haccepted : M.apply p e = .accepted s) : History (events ++ [e]) (some s)

variable (M) in
/-- The head of a state is the last event that led to it. -/
structure Tracks : Prop where
  create : ∀ {e s}, (M.link e).revision = 1 → M.create e = .ok s →
    M.head s = ⟨(M.link e).id, 1, (M.link e).hash⟩
  extend : ∀ {s e s'}, M.extend s e = .ok s' →
    M.head s' = ⟨(M.head s).id, (M.link e).revision, (M.link e).hash⟩

section History

variable {events : List ε} {p : Option σ} {s : σ}

theorem Tracks.head (hM : Tracks M) (h : M.apply p e = .accepted s) :
    M.head s = ⟨(M.link e).id, (M.link e).revision, (M.link e).hash⟩ := by
  obtain ⟨-, hrevision, hcreate⟩ | ⟨t, rfl, hplace, hextend⟩ := apply_accepted h
  · rw [hM.create hrevision hcreate, hrevision]
  · rw [hM.extend hextend, (Head.place_eq_next.mp hplace).1]

theorem History.eq_nil (h : History M events none) : events = [] := by
  cases h
  rfl

variable {q : Option σ}

theorem History.unique (hp : History M events p) (hq : History M events q) : p = q := by
  induction hp generalizing q with
  | nil =>
    generalize hnil : ([] : List ε) = events at hq
    cases hq with
    | nil => rfl
    | snoc => simp at hnil
  | @snoc front r e s _ haccepted ih =>
    generalize hall : front ++ [e] = all at hq
    cases hq with
    | nil => simp at hall
    | @snoc front' r' e' s' h' haccepted' =>
      obtain ⟨rfl, hlast⟩ := List.append_inj' hall rfl
      obtain rfl := List.head_eq_of_cons_eq hlast
      obtain rfl := ih h'
      rw [haccepted] at haccepted'
      rw [Applied.accepted.inj haccepted']

theorem History.take (h : History M events p) (n : Nat) : ∃ q, History M (events.take n) q := by
  induction h with
  | nil => exact ⟨none, by rw [List.take_nil]; exact .nil⟩
  | @snoc front r e s hfront haccepted ih =>
    by_cases hn : n ≤ front.length
    · rwa [List.take_append_of_le_length hn]
    · rw [List.take_of_length_le (by rw [List.length_append, List.length_singleton]; omega)]
      exact ⟨_, .snoc hfront haccepted⟩

/-- The revision counts the events, and the hash is that of the last one. -/
theorem History.head (hM : Tracks M) (h : History M events p) :
    (p = none ∧ events = []) ∨ ∃ s front e, p = some s ∧ events = front ++ [e] ∧
      (M.head s).revision = events.length ∧ (M.head s).id = (M.link e).id ∧
      (M.head s).hash = (M.link e).hash := by
  induction h with
  | nil => exact .inl ⟨rfl, rfl⟩
  | @snoc front r e s hfront haccepted ih =>
    refine .inr ⟨s, front, e, rfl, rfl, ?_⟩
    have hhead := hM.head haccepted
    refine ⟨?_, by rw [hhead], by rw [hhead]⟩
    rw [hhead, List.length_append, List.length_singleton]
    obtain ⟨rfl, hrevision, -⟩ | ⟨t, rfl, hplace, -⟩ := apply_accepted haccepted
    · obtain ⟨-, rfl⟩ | ⟨s, front', e', hsome, -⟩ := ih
      · exact hrevision
      · cases hsome
    · obtain ⟨hnone, -⟩ | ⟨s, front', e', hsome, -, hlength, -⟩ := ih
      · cases hnone
      · cases hsome
        rw [(Head.place_eq_next.mp hplace).2.1, hlength]

theorem fold_append (p : Option σ) (front : List ε) (e : ε) :
    (M.fold p (front ++ [e])).2 = (M.apply (M.fold p front).2 e).after (M.fold p front).2 := by
  induction front generalizing p with
  | nil => rfl
  | cons a front ih => exact ih _

theorem History.fold_eq (h : History M events p) : (M.fold none events).2 = p := by
  induction h with
  | nil => rfl
  | snoc _ haccepted ih => rw [fold_append, ih, haccepted]; rfl

variable {front : List ε}

theorem History.last (h : History M (front ++ [e]) p)
    (hq : History M front q) : ∃ s, p = some s ∧ M.apply q e = .accepted s := by
  generalize hall : front ++ [e] = events at h
  cases h with
  | nil => simp at hall
  | @snoc front' r e' s h' haccepted =>
    obtain ⟨rfl, hlast⟩ := List.append_inj' hall rfl
    obtain rfl := List.head_eq_of_cons_eq hlast
    rw [hq.unique h']
    exact ⟨s, rfl, haccepted⟩

/-- The events a run accepts are a history of what it leads to. -/
theorem History.accepted (h : History M front p) (events : List ε) :
    History M (front ++ M.accepted p events) (M.fold p events).2 := by
  induction events generalizing front p with
  | nil => rwa [ControlMachine.accepted, List.append_nil]
  | cons e events ih =>
    unfold ControlMachine.accepted
    cases happly : M.apply p e with
    | accepted s =>
      have hnext := ih (.snoc h happly)
      rw [List.append_assoc] at hnext
      show History M _ (M.fold ((M.apply p e).after p) events).2
      rw [happly]
      exact hnext
    | _ =>
      show History M _ (M.fold ((M.apply p e).after p) events).2
      rw [happly]
      exact ih h

theorem History.linked (hM : Tracks M)
    (hfirst : ∀ e, (M.link e).revision = 1 → (M.link e).previous = none)
    (h : History M events (some s)) : Linked (M.head s).id 0 none (events.map M.link) := by
  generalize hp : some s = p at h
  induction h generalizing s with
  | nil => cases hp
  | @snoc front r e t hfront haccepted ih =>
    cases hp
    have hhead := hM.head haccepted
    rw [hhead, List.map_append, linked_iff]
    intro i l hl
    by_cases hi : i < (front.map M.link).length
    · obtain ⟨rfl, -, -⟩ | ⟨u, rfl, hplace, -⟩ := apply_accepted haccepted
      · obtain ⟨-, rfl⟩ | ⟨_, _, _, hsome, -⟩ := hfront.head hM
        · simp at hi
        · cases hsome
      · rw [List.getElem?_append_left hi] at hl
        obtain ⟨hid, hrevision, hprevious⟩ := linked_iff.mp (ih rfl) i l hl
        refine ⟨hid.trans (Head.place_eq_next.mp hplace).1.symm, hrevision, ?_⟩
        rw [hprevious, List.getElem?_append_left (by omega)]
    · obtain rfl : i = (front.map M.link).length := by
        have := (List.getElem?_eq_some_iff.mp hl).1
        rw [List.length_append, List.map_singleton, List.length_singleton] at this
        omega
      obtain rfl : M.link e = l := by simpa using hl
      refine ⟨rfl, ?_, ?_⟩
      · obtain ⟨hnone, -⟩ | ⟨_, -, -, hsome, -, hlength, -⟩ := (History.snoc hfront haccepted).head hM
        · cases hnone
        · cases hsome
          rw [List.length_append, hhead] at hlength
          rw [List.length_map, Nat.zero_add]
          exact hlength
      · obtain ⟨rfl, hrevision, -⟩ | ⟨u, rfl, hplace, -⟩ := apply_accepted haccepted
        · obtain ⟨-, rfl⟩ | ⟨_, _, _, hsome, -⟩ := hfront.head hM
          · exact hfirst e hrevision
          · cases hsome
        · obtain ⟨hnone, -⟩ | ⟨_, front', e', hsome, rfl, -, -, hhash⟩ := hfront.head hM
          · cases hnone
          · cases hsome
            rw [(Head.place_eq_next.mp hplace).2.2, hhash]
            simp

/-- Histories that end at the same head consist of the same events, as far as the hash of an event
tells which one it is. -/
theorem History.map_eq_of_head {κ : Type} {k : ε → κ} (hM : Tracks M) (hN : Tracks N)
    (hlinks : M.link = N.link)
    (hfirst : ∀ e, (M.link e).revision = 1 → (M.link e).previous = none) {a b : List ε}
    (ha : History M a p) (hb : History N b q)
    (hinj : ∀ e ∈ a, ∀ e' ∈ b, (M.link e).hash = (M.link e').hash →
      M.link e = M.link e' ∧ k e = k e')
    (hhead : p.map M.head = q.map N.head) : a.map k = b.map k := by
  induction ha generalizing b q with
  | nil =>
    cases hb with
    | nil => rfl
    | snoc => cases hhead
  | @snoc front r e s hfront haccepted ih =>
    cases hb with
    | nil => cases hhead
    | @snoc front' r' e' t hfront' haccepted' =>
      have hlast : M.head s = N.head t := Option.some.inj hhead
      rw [hM.head haccepted, hN.head haccepted', ← hlinks] at hlast
      obtain ⟨hlink, hk⟩ := hinj e (by simp) e' (by simp) (congrArg Head.hash hlast)
      -- the last event names the head before it, so that was the same one too
      have hbefore : r.map M.head = r'.map N.head := by
        obtain ⟨rfl, hone, -⟩ | ⟨u, rfl, hplace, -⟩ := apply_accepted haccepted <;>
          obtain ⟨rfl, hone', -⟩ | ⟨u', rfl, hplace', -⟩ := apply_accepted haccepted'
        · rfl
        · have hprevious := (Head.place_eq_next.mp hplace').2.2
          rw [← hlinks, ← hlink, hfirst e hone] at hprevious
          cases hprevious
        · have hprevious := (Head.place_eq_next.mp hplace).2.2
          rw [← hlinks, ← hlink] at hone'
          rw [hfirst e hone'] at hprevious
          cases hprevious
        · exact congrArg some (Head.eq_of_next hplace (by rwa [hlink, hlinks]))
      rw [List.map_append, List.map_append, List.map_singleton, List.map_singleton, hk,
        ih hfront' (fun e he e' he' => hinj e (by simp [he]) e' (by simp [he'])) hbefore]

theorem fold_congr {κ : Type} {k : ε → κ}
    (hk : ∀ {e e'}, k e = k e' → ∀ p, M.apply p e = M.apply p e') {a b : List ε}
    (h : a.map k = b.map k) : M.fold p a = M.fold p b := by
  induction a generalizing b p with
  | nil => rw [List.map_eq_nil_iff.mp h.symm]
  | cons e a ih =>
    cases b with
    | nil => cases h
    | cons e' b =>
      obtain ⟨he, hrest⟩ := List.cons.inj h
      unfold fold
      dsimp only
      rw [hk he, ih hrest]

end History

end ControlMachine

end CommPlatform.Core
