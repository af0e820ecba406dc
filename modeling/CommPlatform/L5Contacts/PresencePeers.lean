import CommPlatform.L5Contacts.PeerTrust

/-!
# Cached presence peers

`_resolve` of `cached_presence_peers.dart` for one account: any number of
resolutions and of writes of the account's trust record, interleaved at every
await. An answer is known by the number of writes recorded when the delegate
computed it.

Bare line numbers are those of `cached_presence_peers.dart`.
-/
namespace CommPlatform.Contacts

open CommPlatform.Core

/-- In microseconds. -/
def maximumAge : Nat := 10_000_000

structure PresenceAnswer where
  readAt : Nat
  trustState : Option ContactTrustState
  made : Nat
deriving DecidableEq

inductive ResolutionPhase
  | started
  | checking (cached : PresenceAnswer)
  | checked (cached : PresenceAnswer) (state : Option ContactTrustState)
  | asked
  | answered (made : Nat)
  | filing (answer : PresenceAnswer)
  | returned (made : Nat)
deriving DecidableEq

/-- The answer that a resolution is about to compare or to file. -/
def ResolutionPhase.held : ResolutionPhase → Option PresenceAnswer
  | .checking a | .filing a => some a
  | _ => none

/-- A resolution that began when `since` writes were recorded. -/
structure Resolution where
  since : Nat
  now : Nat
  phase : ResolutionPhase
deriving DecidableEq

structure PresencePeers where
  trust : Option ContactTrustState
  changes : Nat
  answer : Option PresenceAnswer
  resolutions : List Resolution

inductive PresenceEvent
  | write (state : Option ContactTrustState)
  | start (now : Nat)
  /-- up to the next await; `fails` if what is read there is a failure -/
  | resume (i : Nat) (fails : Bool)

namespace PresencePeers

def put (s : PresencePeers) (i : Nat) (r : Resolution) (phase : ResolutionPhase) :
    PresencePeers :=
  { s with resolutions := s.resolutions.set i { r with phase } }

/-- mirrors :91-149 -/
def next (s : PresencePeers) : PresenceEvent → Option PresencePeers
  | .write state => some { s with trust := state, changes := s.changes + 1 }
  | .start now =>
    some { s with resolutions := s.resolutions ++ [⟨s.changes, now, .started⟩] }
  | .resume i fails => do
    let r ← s.resolutions[i]?
    let trustState := if fails then none else s.trust
    match r.phase with
    | .started =>
      match s.answer.filter fun a => r.now - a.readAt < maximumAge && a.readAt ≤ r.now with
      | some cached => some (s.put i r (.checking cached))
      | none => some { s.put i r .asked with answer := none }
    | .checking cached => some (s.put i r (.checked cached trustState))
    | .checked cached state =>
      if state = cached.trustState then some (s.put i r (.returned cached.made))
      else some { s.put i r .asked with answer := none }
    | .asked => some (s.put i r (if fails then .returned s.changes else .answered s.changes))
    | .answered made => some (s.put i r (.filing ⟨r.now, trustState, made⟩))
    | .filing answer => some { s.put i r (.returned answer.made) with answer }
    | .returned _ => none

def held (s : PresencePeers) : List PresenceAnswer :=
  s.answer.toList ++ s.resolutions.filterMap (·.phase.held)

/-- The trust state is read, no write falls between an answer and the reading of the state it is
filed under, and no write leaves the state that an answer in use is filed under. -/
def undisturbed (s : PresencePeers) : PresenceEvent → Bool
  | .write state => s.held.all (state ≠ ·.trustState)
  | .start _ => true
  | .resume i fails => match s.resolutions[i]?.map Resolution.phase with
    | some (.checking _) => !fails
    | some (.answered made) => !fails && made == s.changes
    | _ => true

def system (allowed : PresencePeers → PresenceEvent → Bool) : System PresencePeers :=
  .ofNext (fun s => s.answer = none ∧ s.resolutions = [])
    fun s e => if allowed s e then s.next e else none

/-- A hit on `a` is told from the state of the record: no write came after it, or the state
differs. -/
def Current (s : PresencePeers) (a : PresenceAnswer) : Prop :=
  a.made = s.changes ∨ s.trust ≠ a.trustState

/-- What is returned was computed after every write recorded at the start. -/
def Fresh (s : PresencePeers) (r : Resolution) : Prop :=
  r.since ≤ s.changes ∧ match r.phase with
  | .checking a => s.Current a
  | .checked a state => state = a.trustState → r.since ≤ a.made
  | .answered made | .returned made => r.since ≤ made
  | .filing a => s.Current a ∧ r.since ≤ a.made
  | _ => True

structure Inv (s : PresencePeers) : Prop where
  cached : ∀ a, s.answer = some a → s.Current a
  fresh : ∀ r ∈ s.resolutions, s.Fresh r

variable {s s' : PresencePeers} {r : Resolution} {i : Nat}

theorem Inv.put (h : Inv s) {phase : ResolutionPhase} {answer : Option PresenceAnswer}
    (hanswer : ∀ a, answer = some a → s.Current a) (hfresh : s.Fresh { r with phase }) :
    Inv { s.put i r phase with answer } := by
  refine ⟨hanswer, fun r' hr' => ?_⟩
  rcases List.mem_or_eq_of_mem_set hr' with hr' | rfl
  · exact h.fresh r' hr'
  · exact hfresh

theorem Inv.write (h : Inv s) {state : Option ContactTrustState}
    (ha : s.undisturbed (.write state) = true) :
    Inv { s with trust := state, changes := s.changes + 1 } := by
  have hne a (hm : a ∈ s.held) : state ≠ a.trustState := by
    simpa using List.all_eq_true.mp ha a hm
  refine ⟨fun a hm => .inr (hne a (by simp [held, show s.answer = some a from hm])), ?_⟩
  intro ⟨since, now, phase⟩ hr
  obtain ⟨hle, hf⟩ := h.fresh _ hr
  have hown a (hp : phase.held = some a) : state ≠ a.trustState :=
    hne a (List.mem_append_right _ (List.mem_filterMap.mpr ⟨_, hr, hp⟩))
  refine ⟨hle.trans (Nat.le_succ _), ?_⟩
  cases phase with
  | checking a => exact .inr (hown a rfl)
  | filing a => exact ⟨.inr (hown a rfl), hf.2⟩
  | _ => exact hf

theorem Inv.resume (h : Inv s) {fails : Bool} (ha : s.undisturbed (.resume i fails) = true)
    (hs : s.next (.resume i fails) = some s') : Inv s' := by
  obtain ⟨⟨since, now, phase⟩, hi, hs⟩ := Option.bind_eq_some_iff.mp hs
  obtain ⟨hle, hf⟩ := h.fresh _ (List.mem_of_getElem? hi)
  simp only [undisturbed, hi, Option.map_some] at ha
  cases phase with
  | started =>
    dsimp only at hs
    split at hs <;> cases hs
    · next cached hc =>
      exact h.put h.cached ⟨hle, h.cached cached (Option.filter_eq_some_iff.mp hc).1⟩
    · exact h.put (by simp) ⟨hle, trivial⟩
  | checking cached =>
    cases hs
    refine h.put h.cached ⟨hle, fun heq => ?_⟩
    rcases hf with hm | hm
    · exact hle.trans_eq hm.symm
    · simp_all
  | checked cached state =>
    dsimp only at hs
    split at hs <;> cases hs
    · next heq => exact h.put h.cached ⟨hle, hf heq⟩
    · exact h.put (by simp) ⟨hle, trivial⟩
  | asked =>
    cases hs
    cases fails <;> exact h.put h.cached ⟨hle, hle⟩
  | answered made =>
    cases hs
    simp only [Bool.and_eq_true, beq_iff_eq] at ha
    exact h.put h.cached ⟨hle, .inl ha.2, hf⟩
  | filing answer =>
    cases hs
    exact h.put (fun a heq => Option.some.inj heq ▸ hf.1) ⟨hle, hf.2⟩
  | returned made => cases hs

theorem inv_inductive : (system undisturbed).Inductive Inv where
  init s h := by
    obtain ⟨ha, hr⟩ := h
    constructor <;> simp [ha, hr]
  step s s' h hs := by
    obtain ⟨e, hs⟩ := hs
    obtain ⟨ha, hs⟩ := Option.ite_none_right_eq_some.mp hs
    cases e with
    | write state =>
      cases hs
      exact h.write ha
    | start now =>
      cases hs
      refine ⟨h.cached, fun r hr => ?_⟩
      rcases List.mem_append.mp hr with hr | hr
      · exact h.fresh r hr
      · cases List.mem_singleton.mp hr
        exact ⟨le_rfl, trivial⟩
    | resume i fails => exact h.resume ha hs

/-- No resolution returns an answer computed before a write that was recorded when it started. -/
theorem resolution_sees_changes {made : Nat} (h : (system undisturbed).Reachable s)
    (hr : r ∈ s.resolutions) (hp : r.phase = .returned made) : r.since ≤ made := by
  have hf := (inv_inductive.reachable h).fresh r hr
  rw [Fresh, hp] at hf
  exact hf.2

def changedFirst : List PresenceEvent :=
  .write (some .verified) :: .start 0 :: List.replicate 4 (.resume 0 false) ++ .start 9 ::
    List.replicate 3 (.resume 1 false)

theorem resolution_sees_changes_changedFirst :
    ∃ s r, (system undisturbed).Reachable s ∧ r ∈ s.resolutions ∧
      r.now = 9 ∧ r.phase = .returned 1 ∧ r.since ≤ 1 := by
  have h0 : (system undisturbed).Reachable ⟨none, 0, none, []⟩ := .init ⟨rfl, rfl⟩
  have h := h0.foldlM changedFirst rfl
  exact ⟨_, ⟨1, 9, .returned 1⟩, h, by decide, rfl, rfl, resolution_sees_changes h (by decide) rfl⟩

def changedBetween : List PresenceEvent :=
  .start 0 :: List.replicate 2 (.resume 0 false) ++ .write (some .masterKeyChanged) ::
    List.replicate 2 (.resume 0 false) ++ .start 9 :: List.replicate 3 (.resume 1 false)

/-- The answer computed before the change is filed under the state after it, and returned. -/
theorem earlier_answer_returned :
    ∃ s r, (system fun _ _ => true).Reachable s ∧ r ∈ s.resolutions ∧ r.since = 1 ∧
      r.phase = .returned 0 := by
  have h0 : (system fun _ _ => true).Reachable ⟨some .verified, 0, none, []⟩ := .init ⟨rfl, rfl⟩
  have h := h0.foldlM changedBetween rfl
  exact ⟨_, ⟨1, 9, .returned 0⟩, h, by decide, rfl, rfl⟩

end PresencePeers

end CommPlatform.Contacts
