import CommPlatform.Core.Runs
import CommPlatform.L5Groups.Freezing

/-!
# Delivery of one chain

All devices of a group, where every event ever signed for it lies on one
chain of authorized events. Single events, requests and answers reach the
devices in any order, or not at all, or again; other groups do as they
like.

* `history_transfer`: what one device accepted every other accepts, as long as
  the group still has a member.
* `Inv.step`, `delivery_inductive`: every store holds a beginning of the
  chain and no device freezes the group; everything sent tells such a
  beginning.
-/
namespace CommPlatform.Groups

open CommPlatform.Core ControlMachine
open List (append_nil drop_zero getElem?_map length_take_of_le map_drop map_take mem_append
  mem_cons mem_map mem_map_of_mem)

/-! ## Positions on the chain -/

section Positions

variable {g : GroupId} {chain events : List SignedGroupControlEvent} {n : Nat}
  {hash : Option StateHash} {e : SignedGroupControlEvent}

variable (hchain : Linked g 0 none (links chain))
include hchain

theorem chain_position (he : e ∈ chain) : chain[e.event.revision - 1]? = some e := by
  obtain ⟨i, hi⟩ := List.getElem?_of_mem he
  have hlink := linked_iff.mp hchain i e.link (by rw [getElem?_map, hi]; rfl)
  have hrevision : e.event.revision = 0 + i + 1 := hlink.2.1
  rw [hrevision, show 0 + i + 1 - 1 = i by omega, hi]

theorem chain_hash (he : e ∈ chain) :
    hashAt (links chain) e.event.revision = some e.controlStateHash := by
  have hpos := e.event.revision_pos
  rw [hashAt, if_neg (by omega), getElem?_map, chain_position hchain he]
  rfl

theorem chain_previous (he : e ∈ chain) :
    e.event.previousControlStateHash = hashAt (links chain) (e.event.revision - 1) := by
  have hdrop := hchain.drop (e.event.revision - 1)
  have hpos := chain_position hchain he
  obtain ⟨-, -, hprevious⟩ := linked_iff.mp hdrop 0 e.link (by
    rw [List.getElem?_drop, Nat.add_zero, getElem?_map, hpos]
    rfl)
  exact hprevious

theorem chain_segment (h : Linked g n hash (links events))
    (hmem : ∀ e ∈ events, e ∈ chain) : events = (chain.drop n).take events.length := by
  refine List.ext_getElem? fun i => ?_
  by_cases hi : i < events.length
  · obtain ⟨e, he⟩ : ∃ e, events[i]? = some e := ⟨_, List.getElem?_eq_getElem hi⟩
    have hlink := linked_iff.mp h i e.link (by rw [getElem?_map, he]; rfl)
    have hrevision : e.event.revision = n + i + 1 := hlink.2.1
    have hpos := chain_position hchain (hmem e (List.mem_of_getElem? he))
    rw [hrevision, Nat.add_sub_cancel] at hpos
    rw [he, List.getElem?_take_of_lt hi, List.getElem?_drop, hpos]
  · rw [List.getElem?_eq_none (by omega), List.getElem?_eq_none]
    rw [List.length_take]
    omega

theorem chain_start (h : Linked g 0 none (links events))
    (hmem : ∀ e ∈ events, e ∈ chain) : events = chain.take events.length := by
  have hsegment := chain_segment hchain h hmem
  rwa [drop_zero] at hsegment

omit hchain

theorem hashAt_take {m : Nat} (h : n ≤ m) :
    hashAt (links (chain.take m)) n = hashAt (links chain) n := by
  unfold hashAt links
  split
  · rfl
  · rw [map_take, List.getElem?_take_of_lt (by omega)]

end Positions

/-! ## Other devices accept the same events -/

section Transfer

variable {l l' : UserId} {events : List SignedGroupControlEvent} {s : GroupState}

theorem history_transfer (h : History (stateMachine l) events (some s))
    (hmember : ∃ u, Active s.roster u) (l' : UserId) :
    ∃ t, History (stateMachine l') events (some t) ∧ SameRoster s t := by
  suffices hboth : ∃ t, History (stateMachine l') events (some t) ∧ SameRoster s t ∧ Held l s ∧
      Held l' t by
    obtain ⟨t, ht, hsame, -⟩ := hboth
    exact ⟨t, ht, hsame⟩
  generalize hp : some s = p at h
  induction h generalizing s with
  | nil => cases hp
  | @snoc front r e s' hfront haccepted ih =>
    cases hp
    -- what the other device holds before the event, and why nothing splits the two here
    have hbefore : ∃ q, History (stateMachine l') front q ∧
        Option.Rel (fun s t => SameRoster s t ∧ Held l s ∧ Held l' t) r q := by
      obtain ⟨rfl, -, -⟩ | ⟨t, rfl, -, hextend⟩ := apply_accepted haccepted
      · rw [hfront.eq_nil]
        exact ⟨none, .nil, .none⟩
      · obtain ⟨hactor, -, -⟩ := extendGroup_eq_ok hextend
        obtain ⟨q, hq, hrel⟩ := ih ⟨_, hactor⟩ rfl
        exact ⟨some q, hq, .some hrel⟩
    have hsplit : ∀ t, r = some t →
        ((stateMachine l).head t).place ((stateMachine l).link e) = .next → ¬ Splits l l' t e := by
      rintro t rfl - ⟨hop, -, hlast, -⟩
      obtain ⟨hnone, -⟩ | ⟨_, hsome, -, hextend⟩ := apply_accepted haccepted
      · cases hnone
      cases hsome
      obtain ⟨-, hchange, -⟩ := extendGroup_eq_ok hextend
      obtain ⟨u, hu⟩ := hmember
      exact hchange.departed hop hlast hu
    obtain ⟨q, hq, hrel⟩ := hbefore
    obtain ⟨hverdict, hafter⟩ := (devices_lockstep l l').same hrel hsplit
    rw [haccepted] at hverdict hafter
    cases happly : (stateMachine l').apply q e with
    | accepted t =>
      rw [happly] at hafter
      cases hafter with
      | some hsame => exact ⟨t, .snoc hq happly, hsame⟩
    | _ =>
      rw [happly] at hverdict
      cases hverdict

/-- What follows a beginning of a history is accepted after it. -/
theorem applyAll_of_history {front rest : List SignedGroupControlEvent} {p q : Option GroupState}
    (h : History (stateMachine l) (front ++ rest) p) (hq : History (stateMachine l) front q) :
    applyAll l q rest = .ok p := by
  induction rest generalizing front q with
  | nil =>
    rw [append_nil] at h
    rw [hq.unique h]
    rfl
  | cons e rest ih =>
    rw [List.append_cons] at h
    obtain ⟨r, hr⟩ := h.take (front ++ [e]).length
    rw [List.take_left] at hr
    obtain ⟨s, rfl, happly⟩ := hr.last hq
    unfold applyAll
    rw [happly]
    exact ih h hr

end Transfer

/-! ## All devices -/

/-- The stores of the devices, and the requests and answers sent so far; what is sent is never taken
back, so that it can be lost, delayed and repeated. -/
structure World where
  stores : Sender → GroupStore
  requests : List (Sender × StateReference)
  answers : List (Sender × GroupTranscriptPayload)

namespace World

def setStore (w : World) (d : Sender) (store : GroupStore) : World :=
  { w with stores := Function.update w.stores d store }

theorem setStore_self (w : World) (d : Sender) (store : GroupStore) :
    (w.setStore d store).stores d = store := Function.update_self _ _ _

theorem setStore_of_ne (w : World) {d d' : Sender} (h : d' ≠ d) (store : GroupStore) :
    (w.setStore d store).stores d' = w.stores d' := Function.update_of_ne h _ _

end World

def GroupStore.revision (store : GroupStore) (g : GroupId) : Nat :=
  (store.states g).elim 0 (·.controlRevision)

/-- A request names the state the device holds.
mirrors group_state_recovery_service.dart:112-116 -/
structure Asks (store : GroupStore) (request : StateReference) : Prop where
  revision : request.revision = store.revision request.groupId
  hash : request.hash = (store.states request.groupId).map (·.controlStateHash)

/-- The ports open no event of the group but those on the chain. -/
def Honest (g : GroupId) (chain : List SignedGroupControlEvent) (ports : Ports) : Prop :=
  ∀ control e, ports.openEntry control = .ok e → e.event.groupId = g → e ∈ chain

/-- One step of a device: it receives a payload, signs an event, begins another conversation, asks
for a state or answers. The transcripts of the group it receives are answers sent to it. -/
inductive Step (g : GroupId) (chain : List SignedGroupControlEvent) : World → World → Prop
  | receive {w : World} (d : Sender) (ports : Ports) (sender : Sender) (payload : GroupSyncPayload)
      (hports : Honest g chain ports)
      (hpayload : ∀ t, payload = .transcript t → t.base.groupId = g → (d, t) ∈ w.answers) :
      Step g chain w (w.setStore d ((w.stores d).receive ports d.userId sender payload))
  | sign {w : World} (d : Sender) (e : SignedGroupControlEvent)
      (he : e.event.groupId = g → e ∈ chain) :
      Step g chain w (w.setStore d ((w.stores d).signApplyAndCommit d.userId e))
  | converse {w : World} (d : Sender) (id : GroupId) :
      Step g chain w (w.setStore d ((w.stores d).converse id))
  | request {w : World} (d : Sender) (request : StateReference)
      (hasks : Asks (w.stores d) request) :
      Step g chain w { w with requests := (d, request) :: w.requests }
  | answer {w : World} (d sender recipient : Sender) (request : StateReference)
      (payload : GroupTranscriptPayload) (hrequest : (sender, request) ∈ w.requests)
      (hanswer : prepareStateRequest d.userId (w.stores d) sender request =
        .ok (.change (.outbound payload recipient))) :
      Step g chain w { w with answers := (recipient, payload) :: w.answers }

structure Start (g : GroupId) (w : World) : Prop where
  states : ∀ d, (w.stores d).states g = none
  recorded : ∀ d, (w.stores d).recorded g = []
  requests : w.requests = []
  answers : w.answers = []

def delivery (g : GroupId) (chain : List SignedGroupControlEvent) : System World where
  init := Start g
  step := Step g chain

/-! ## The invariant -/

/-- A store that holds a beginning of the chain. -/
def Follows (g : GroupId) (chain : List SignedGroupControlEvent) (l : UserId) (store : GroupStore)
    (history : List SignedGroupControlEvent) : Prop :=
  (∀ e ∈ history, e ∈ chain) ∧ Backed l store g history (store.states g)

/-- A transcript that tells a beginning of the chain, from a base its recipient passed through, by
somebody who was in the group then. -/
structure Tells (g : GroupId) (chain : List SignedGroupControlEvent) (revision : Nat)
    (t : GroupTranscriptPayload) : Prop where
  passed : t.base.revision ≤ revision
  hash : t.base.hash = hashAt (links chain) t.base.revision
  told : ∃ m l s, m ≤ chain.length ∧ t.base.revision ≤ m ∧
    History (stateMachine l) (chain.take m) (some s) ∧ (∃ u, Active s.roster u) ∧
    t.entries = ((chain.take m).drop t.base.revision).map
      (GroupSignedControlBytes.fromStored ∘ SignedGroupControlEvent.stored)

variable {t : GroupTranscriptPayload}

structure Inv (g : GroupId) (chain : List SignedGroupControlEvent) (w : World) : Prop where
  stores : ∀ d, ∃ history, Follows g chain d.userId (w.stores d) history
  requests : ∀ d request, (d, request) ∈ w.requests → request.groupId = g →
    request.revision ≤ (w.stores d).revision g
  answers : ∀ d t, (d, t) ∈ w.answers → t.base.groupId = g →
    Tells g chain ((w.stores d).revision g) t

section Follows

variable {g : GroupId} {chain history : List SignedGroupControlEvent} {l : UserId}
  {store : GroupStore} {ports : Ports} {sender : Sender} {payload : GroupSyncPayload}
  {e : SignedGroupControlEvent}

theorem mem_opened (h : e ∈ opened ports payload) : ∃ control, ports.openEntry control = .ok e := by
  cases payload with
  | control control =>
    refine ⟨control, toOption_eq_some.mp ?_⟩
    simpa [opened] using h
  | stateRequest request => cases h
  | transcript transcript =>
    cases hopen : transcript.entries.mapM ports.openEntry with
    | error failure =>
      rw [opened, hopen] at h
      cases h
    | ok events =>
      rw [opened, hopen] at h
      obtain ⟨control, -, hcontrol⟩ := mem_of_mapM hopen h
      exact ⟨control, hcontrol⟩

theorem Follows.revision_eq (h : Follows g chain l store history) :
    store.revision g = history.length := by
  have hbacked := h.2
  rw [GroupStore.revision]
  cases hs : store.states g with
  | none =>
    rw [hs] at hbacked
    rw [hbacked.accepted.eq_nil]
    rfl
  | some s =>
    rw [hs] at hbacked
    exact hbacked.head.1

theorem Follows.start (hchain : Linked g 0 none (links chain))
    (h : Follows g chain l store history) :
    history = chain.take history.length ∧ history.length ≤ chain.length := by
  have hstart := chain_start hchain h.2.linked h.1
  refine ⟨hstart, ?_⟩
  have hlength := congrArg List.length hstart
  rw [List.length_take] at hlength
  omega

theorem Follows.split (hchain : Linked g 0 none (links chain))
    (h : Follows g chain l store history) : history ++ chain.drop history.length = chain := by
  obtain ⟨hstart, hlength⟩ := h.start hchain
  conv_lhs => rw [hstart, length_take_of_le hlength]
  exact List.take_append_drop _ _

theorem Backed.follows {folded : Option GroupState}
    (h : Backed l store g history folded) (hmem : ∀ e ∈ history, e ∈ chain)
    (hfree : ∀ s, store.states g = some s → isQuarantined s = false) :
    Follows g chain l store history := by
  have hfolded : folded = store.states g := by
    cases hs : store.states g with
    | none => exact h.fresh hs
    | some s => exact h.kept hs (hfree s hs)
  exact ⟨hmem, hfolded ▸ h⟩

variable (hchain : Linked g 0 none (links chain))
include hchain

variable (h : Follows g chain l store history)
include h

theorem hashAt_history {k : Nat} (hk : k ≤ history.length) :
    hashAt (links history) k = hashAt (links chain) k := by
  rw [(h.start hchain).1]
  exact hashAt_take hk

/-- An event of the chain stands in one chain with every beginning of it. -/
theorem Follows.not_conflicts (he : e ∈ chain) : ¬ Conflicts g history e := by
  rintro ⟨-, ⟨hle, hdiffers⟩ | ⟨hnext, hdiffers⟩⟩
  · exact hdiffers ((hashAt_history hchain h hle).trans (chain_hash hchain he))
  · refine hdiffers ?_
    rw [chain_previous hchain he, hnext]
    exact (hashAt_history hchain h le_rfl).symm

theorem Follows.not_forks (hports : Honest g chain ports)
    (hpayload : ∀ t, payload = .transcript t → t.base.groupId = g →
      Tells g chain history.length t) : ¬ Forks ports sender g history payload := by
  cases payload with
  | control control =>
    rintro ⟨-, -, e, hopen, hconflict⟩
    exact h.not_conflicts hchain (hports control e hopen hconflict.1) hconflict
  | stateRequest request => exact id
  | transcript t =>
    rintro ⟨hgroup, hle, events, hopen, hfollows, hbase | ⟨e, he, hheld, hdiffers⟩⟩
    · refine hbase ?_
      rw [(hpayload t rfl hgroup).hash]
      exact hashAt_history hchain h hle
    · have hlinked := followsBase_iff.mp hfollows
      have heg : e.event.groupId = g := (hlinked.revision_of_mem (mem_map_of_mem he)).1
      obtain ⟨control, -, hcontrol⟩ := mem_of_mapM hopen he
      exact h.not_conflicts hchain (hports control e hcontrol heg) ⟨heg, .inl ⟨hheld, hdiffers⟩⟩

omit h

omit hchain

theorem Follows.free (h : Follows g chain l store history) {s : GroupState}
    (hs : store.states g = some s) : isQuarantined s = false := by
  have hbacked := h.2
  rw [hs] at hbacked
  exact history_free hbacked.accepted

theorem Follows.receive (sender : Sender) (hchain : Linked g 0 none (links chain))
    (h : Follows g chain l store history) (hports : Honest g chain ports)
    (hpayload : ∀ t, payload = .transcript t → t.base.groupId = g →
      Tells g chain history.length t) :
    ∃ added, Follows g chain l (store.receive ports l sender payload) (history ++ added) := by
  obtain ⟨added, folded, hbacked, hopened⟩ := h.2.receive ports sender payload
  refine ⟨added, hbacked.follows (fun e he => ?_) fun s hs => ?_⟩
  · obtain he | hadded := mem_append.mp he
    · exact h.1 e he
    · obtain ⟨control, hcontrol⟩ := mem_opened (hopened e hadded)
      exact hports control e hcontrol
        (hbacked.linked.revision_of_mem (mem_map_of_mem he)).1
  · obtain hsame | ⟨⟨t, hstored⟩, hfreezes⟩ | ⟨expected, next, controls, ht, rfl, hnext⟩ :=
      receive_state ports l store sender payload g
    · exact h.free (hsame.symm.trans hs)
    · obtain ⟨-, hforks⟩ := (freezes_iff h.2 hstored payload).mp hfreezes
      exact absurd hforks (h.not_forks hchain hports hpayload)
    · rw [hnext] at hs
      cases hs
      exact h.2.next_free ht

theorem Follows.sign (h : Follows g chain l store history) (he : e.event.groupId = g → e ∈ chain) :
    ∃ added, Follows g chain l (store.signApplyAndCommit l e) (history ++ added) := by
  obtain hsame | ⟨next, ht, hcommit⟩ := sign_cases l store e
  · rw [hsame]
    exact ⟨[], by rwa [append_nil]⟩
  obtain ⟨folded, hbacked⟩ := h.2.transition ht hcommit
  refine ⟨_, hbacked.follows (fun d hd => ?_) fun s hs => ?_⟩
  · have hgroup := (hbacked.linked.revision_of_mem (mem_map_of_mem hd)).1
    obtain hd | hd := mem_append.mp hd
    · exact h.1 d hd
    · split at hd
      · obtain rfl := List.mem_singleton.mp hd
        exact he hgroup
      · cases hd
  · rw [(commitTransition_eq_ok hcommit).1] at hs
    by_cases hg : next.groupId = g
    · subst hg
      rw [Function.update_self] at hs
      cases hs
      exact h.2.next_free ht
    · rw [Function.update_of_ne (Ne.symm hg)] at hs
      exact h.free hs

/-- What an answer is based on, as far as the transcript of its sender goes. -/
theorem baseReference_spec (request : StateReference) :
    (baseReference request (history.map SignedGroupControlEvent.stored)).groupId = request.groupId ∧
      (baseReference request (history.map SignedGroupControlEvent.stored)).revision ≤
        request.revision ∧
      (baseReference request (history.map SignedGroupControlEvent.stored)).hash =
        hashAt (links history)
          (baseReference request (history.map SignedGroupControlEvent.stored)).revision := by
  unfold baseReference
  split
  · next hpassed =>
    refine ⟨rfl, le_rfl, ?_⟩
    rw [hashAt]
    split
    · next hzero => exact request.zero_iff.mp hzero
    · next hpos =>
      rw [← hpassed.resolve_left hpos, getElem?_map, getElem?_map, Option.map_map,
        Option.map_map]
      rfl
  · exact ⟨rfl, Nat.zero_le _, rfl⟩

theorem Follows.answer (hchain : Linked g 0 none (links chain))
    (h : Follows g chain l store history) {request : StateReference} {recipient : Sender}
    {revision : Nat}
    (hrequest : request.groupId = g → request.revision ≤ revision)
    (hanswer : prepareStateRequest l store sender request = .ok (.change (.outbound t recipient)))
    (hgroup : t.base.groupId = g) : recipient = sender ∧ Tells g chain revision t := by
  unfold prepareStateRequest at hanswer
  split at hanswer
  · cases hanswer
  next stored hstored =>
  split at hanswer
  · cases hanswer
  next hasked =>
  simp only [Bool.or_eq_true, not_or, Bool.not_eq_true, Bool.not_eq_false', decide_eq_true_eq,
    not_lt] at hasked
  obtain ⟨transcript, hread, hanswer⟩ := bind_eq_ok.mp hanswer
  obtain ⟨-, hanswer⟩ := unit_bind_eq_ok.mp hanswer
  dsimp only at hanswer
  split at hanswer
  swap
  · cases hanswer
  have hbasegroup : t.base.groupId = request.groupId := by
    cases hanswer
    unfold baseReference
    split <;> rfl
  have hrequestgroup := hbasegroup.symm.trans hgroup
  rw [hrequestgroup] at hstored hread
  have hbacked := h.2
  rw [hstored] at hbacked
  obtain ⟨hstart, hlength⟩ := h.start hchain
  have hasked' := hasked.2
  rw [hbacked.head.1] at hasked'
  rw [hbacked.readTranscript, drop_zero] at hread
  cases hread
  obtain ⟨-, hbasele, hbasehash⟩ := baseReference_spec request
  generalize baseReference request (history.map SignedGroupControlEvent.stored) = base at *
  cases hanswer
  obtain ⟨m, hm, hactive⟩ := any_member.mp hasked.1.2
  have hmember : Active stored.roster l := ⟨m, hm, by simpa [GroupMember.isActive] using hactive⟩
  refine ⟨rfl, hbasele.trans (hrequest hrequestgroup), ?_, history.length, l, stored, hlength,
    hbasele.trans hasked', ?_, ⟨l, hmember⟩, ?_⟩
  · exact hbasehash.trans (hashAt_history hchain h (hbasele.trans hasked'))
  · rw [← hstart]
    exact hbacked.accepted
  · rw [← hstart, ← map_drop, List.map_map]

end Follows

/-! ## Catching up -/

/-- No event id of the chain is used twice, none is stored for an event of another group, and the
group's id is not that of a conversation of another kind. -/
structure Unused (g : GroupId) (chain : List SignedGroupControlEvent)
    (store : GroupStore) : Prop where
  nodup : (chain.map (·.event.eventId)).Nodup
  elsewhere : ∀ row ∈ store.controls, row.1 ≠ g → ∀ e ∈ chain, row.2.eventId ≠ e.event.eventId
  kind : store.foreign g = false

section CatchUp

variable {g : GroupId} {chain history controls : List SignedGroupControlEvent} {l : UserId}
  {store : GroupStore} {ports : Ports} {sender : Sender}

theorem insertControls_of_fresh {rows : List (GroupId × StoredGroupControl)}
    (hrows : ∀ row ∈ rows, ∀ e ∈ controls, row.2.eventId ≠ e.event.eventId ∧
      (row.1 = g → row.2.revision ≠ e.event.revision))
    (hdistinct : controls.Pairwise fun d e => d.event.eventId ≠ e.event.eventId ∧
      d.event.revision ≠ e.event.revision) :
    ∃ rows', GroupStore.insertControls g controls rows = .ok rows' := by
  induction controls generalizing rows with
  | nil => exact ⟨rows, rfl⟩
  | cons e controls ih =>
    obtain ⟨hfirst, hrest⟩ := List.pairwise_cons.mp hdistinct
    unfold GroupStore.insertControls
    rw [if_neg]
    · refine ih (fun row hrow d hd => ?_) hrest
      obtain hrow | hrow := mem_append.mp hrow
      · exact hrows row hrow d (List.mem_cons_of_mem _ hd)
      · obtain rfl := List.mem_singleton.mp hrow
        exact ⟨(hfirst d hd).1, fun _ => (hfirst d hd).2⟩
    · intro hany
      obtain ⟨row, hrow, htaken⟩ := List.any_eq_true.mp hany
      have hfree := hrows row hrow e List.mem_cons_self
      simp only [Bool.or_eq_true, Bool.and_eq_true, decide_eq_true_eq] at htaken
      obtain hid | ⟨hg, hrevision⟩ := htaken
      · exact hfree.1 hid
      · exact hfree.2 hg hrevision

theorem Follows.insert (hchain : Linked g 0 none (links chain))
    (h : Follows g chain l store history) (hunused : Unused g chain store) :
    ∃ rows, GroupStore.insertControls g (chain.drop history.length) store.controls = .ok rows := by
  have hids : chain.Pairwise fun d e => d.event.eventId ≠ e.event.eventId :=
    List.pairwise_map.mp hunused.nodup
  have hrevisions : chain.Pairwise fun d e => d.event.revision < e.event.revision := by
    rw [List.pairwise_iff_getElem]
    intro i j hi hj hij
    have hrevision : ∀ k (hk : k < chain.length), chain[k].event.revision = k + 1 := by
      intro k hk
      have hlink := linked_iff.mp hchain k chain[k].link (by
        rw [getElem?_map, List.getElem?_eq_getElem hk]
        rfl)
      have : chain[k].event.revision = 0 + k + 1 := hlink.2.1
      omega
    rw [hrevision i hi, hrevision j hj]
    omega
  have hsplit := hids.and hrevisions
  rw [← List.take_append_drop history.length chain, List.pairwise_append] at hsplit
  obtain ⟨-, hrest, hacross⟩ := hsplit
  refine insertControls_of_fresh (fun row hrow e he => ?_) (hrest.imp fun hd => ⟨hd.1, hd.2.ne⟩)
  by_cases hg : row.1 = g
  · -- a row of the group is an event of the beginning
    have hrecorded : row.2 ∈ store.recorded g :=
      mem_map.mpr ⟨row, List.mem_filter.mpr ⟨hrow, by simpa using hg⟩, rfl⟩
    rw [h.2.recorded, (h.start hchain).1] at hrecorded
    obtain ⟨d, hd, hstored⟩ := mem_map.mp hrecorded
    have hdiffer := hacross d hd e he
    rw [← hstored]
    exact ⟨hdiffer.1, fun _ => hdiffer.2.ne⟩
  · exact ⟨hunused.elsewhere row hrow hg e (List.mem_of_mem_drop he), fun heq => absurd heq hg⟩

variable {next : GroupState}

theorem applyAll_head {p : Option GroupState} {last : SignedGroupControlEvent}
    (happlied : applyAll l p controls = .ok (some next)) (hlast : controls.getLast? = some last) :
    next.head = ⟨last.event.groupId, last.event.revision, last.controlStateHash⟩ := by
  induction controls generalizing p with
  | nil => cases hlast
  | cons e controls ih =>
    unfold applyAll at happlied
    split at happlied
    · next made haccepted =>
      cases controls with
      | nil =>
        obtain rfl : e = last := by simpa using hlast
        cases Except.ok.inj happlied
        exact (stateMachine_tracks l).head haccepted
      | cons e' rest => exact ih happlied (by simpa using hlast)
    · cases happlied

theorem Follows.hash_eq (hchain : Linked g 0 none (links chain))
    (h : Follows g chain l store history) :
    hashAt (links chain) history.length = (store.states g).map (·.controlStateHash) := by
  rw [← hashAt_history hchain h le_rfl]
  have hbacked := h.2
  cases hs : store.states g with
  | none =>
    rw [hs] at hbacked
    rw [hbacked.accepted.eq_nil]
    rfl
  | some s =>
    rw [hs] at hbacked
    exact hbacked.head.2

theorem Follows.commit (hchain : Linked g 0 none (links chain))
    (h : Follows g chain l store history) (hunused : Unused g chain store)
    (happlied : applyAll l (store.states g) (chain.drop history.length) = .ok (some next))
    (hnonempty : chain.drop history.length ≠ []) :
    ∃ store', store.commitTransition (store.states g) next (chain.drop history.length) =
      .ok store' := by
  have hlinked := hchain.drop history.length
  rw [← map_drop] at hlinked
  have hhash := h.hash_eq hchain
  obtain ⟨rows, hrows⟩ := h.insert hchain hunused
  have hgroup := applyAll_group happlied hnonempty fun e he =>
    (hlinked.revision_of_mem (mem_map_of_mem he)).1
  have hrevision := h.revision_eq
  unfold GroupStore.revision at hrevision
  generalize chain.drop history.length = rest at *
  obtain ⟨first, tail, rfl⟩ := List.exists_cons_of_ne_nil hnonempty
  obtain ⟨last, hlast⟩ : ∃ last, (first :: tail).getLast? = some last :=
    ⟨_, List.getLast?_eq_some_getLast hnonempty⟩
  have hhead := applyAll_head happlied hlast
  obtain ⟨-, hfirst, hprevious, -⟩ := hlinked
  change first.event.revision = _ at hfirst
  rw [hhash] at hprevious
  have hid : last.event.groupId = g := (congrArg Head.id hhead).symm.trans hgroup
  have hlastrevision : next.controlRevision = last.event.revision := congrArg Head.revision hhead
  have hlasthash : next.controlStateHash = last.controlStateHash := congrArg Head.hash hhead
  unfold GroupStore.commitTransition
  rw [hlast, hgroup, hrows, List.head?_cons, okOr_some, ok_bind, okOr_some, ok_bind]
  cases hs : store.states g with
  | none =>
    rw [hs] at hrevision
    have hone : first.event.revision = 1 := by
      rw [hfirst, ← hrevision]
      rfl
    rw [failIf_neg (by simp [hid, hlastrevision, hlasthash, GroupStore.startsAfter, hone]),
      hunused.kind]
    exact ⟨_, rfl⟩
  | some s =>
    rw [hs] at hrevision hprevious
    have hsg : s.groupId = next.groupId := (h.2.group s hs).trans hgroup.symm
    have hnext : first.event.revision = s.controlRevision + 1 := by
      rw [hfirst, ← hrevision]
      rfl
    have hprevious' : first.event.previousControlStateHash = some s.controlStateHash := hprevious
    rw [failIf_neg (by simp [hid, hlastrevision, hlasthash, GroupStore.startsAfter, hsg, hnext,
      hprevious']), ok_bind]
    dsimp only
    rw [failIf_neg (by simp), hunused.kind]
    exact ⟨_, rfl⟩

theorem receive_of_prepare {change : PreparedGroupInboxCommit} {store' : GroupStore}
    (hprepare : prepareTranscript ports l store t = .ok (.change change))
    (hcommit : store.commit change = .ok store') :
    store.receive ports l sender (.transcript t) = store' := by
  unfold GroupStore.receive
  rw [show prepare ports l store sender (.transcript t) = _ from hprepare]
  dsimp only
  rw [hcommit]

variable (hchain : Linked g 0 none (links chain)) (h : Follows g chain l store history)
  (ht : Tells g chain history.length t) (hgroup : t.base.groupId = g)
  (hreaches : t.base.revision + t.entries.length = chain.length)
  (hopen : t.entries.mapM ports.openEntry = .ok (chain.drop t.base.revision))
  (hmember : store.states g = none →
    ∃ s, ((stateMachine l).fold none chain).2 = some s ∧ Active s.roster l)
include hchain h ht hgroup hreaches hopen hmember

theorem Follows.prepare_answer :
    (history = chain ∧ ∃ c, prepareTranscript ports l store t = .ok (.change c) ∧
        store.commit c = .ok store) ∨
      ∃ next, chain.drop history.length ≠ [] ∧
        applyAll l (store.states g) (chain.drop history.length) = .ok (some next) ∧
        prepareTranscript ports l store t =
          .ok (.change (.transition (store.states g) next (chain.drop history.length) true)) := by
  obtain ⟨m, l₁, s₁, hm, hbase, hhistory, hactive, hentries⟩ := ht.told
  obtain rfl : m = chain.length := by
    have hlength := congrArg List.length hentries
    rw [List.length_map, List.length_drop, length_take_of_le hm] at hlength
    omega
  rw [List.take_length] at hhistory
  have hsplit := h.split hchain
  obtain ⟨next, hnext, -⟩ := history_transfer hhistory hactive l
  have happlied : applyAll l (store.states g) (chain.drop history.length) = .ok (some next) :=
    applyAll_of_history (by rw [hsplit]; exact hnext) h.2.accepted
  have hlinked := hchain.drop t.base.revision
  rw [← map_drop, ← ht.hash] at hlinked
  have hfollows := followsBase_iff.mpr hlinked
  unfold prepareTranscript
  rw [hopen, ok_bind, hgroup, failIf_neg (by simp [hfollows]), ok_bind]
  cases hs : store.states g with
  | none =>
    -- the device holds nothing yet: the transcript starts at the creation
    rw [hs] at happlied
    have hempty : history = [] := by
      have haccepted := h.2.accepted
      rw [hs] at haccepted
      exact haccepted.eq_nil
    subst hempty
    have hzero := Nat.le_zero.mp ht.passed
    have hnonempty : chain ≠ [] := by
      rintro rfl
      obtain ⟨hnone, -⟩ | ⟨_, _, _, _, hnil, -⟩ := hnext.head (stateMachine_tracks l)
      · cases hnone
      · simp at hnil
    obtain ⟨s, hfold, m, hm, hmactive⟩ := hmember hs
    cases hnext.fold_eq.symm.trans hfold
    refine .inr ⟨next, by simpa using hnonempty, happlied, ?_⟩
    rw [List.length_nil, drop_zero] at happlied
    have hlocal : (next.member l).any (·.isActive) = true :=
      any_member.mpr ⟨m, hm, by simpa [GroupMember.isActive] using hmactive⟩
    unfold bootstrap
    rw [hzero, drop_zero, happlied, if_neg (by simpa using hnonempty), List.length_nil,
      drop_zero]
    dsimp only
    rw [hlocal]
    rfl
  | some stored =>
    have hbacked := h.2
    rw [hs] at hbacked happlied
    have hrevision := hbacked.head.1
    have hforked : ¬ forked stored ((history.drop (t.base.revision - 1)).map
        SignedGroupControlEvent.stored) t (chain.drop t.base.revision) = true := by
      rw [forked_iff hbacked hlinked]
      rintro (hbase' | ⟨e, he, hle, hdiffers⟩)
      · exact hbase' ((hashAt_history hchain h ht.passed).trans ht.hash.symm)
      · have hgroup' := (hlinked.revision_of_mem (mem_map_of_mem he)).1
        exact h.not_conflicts hchain (List.mem_of_mem_drop he) ⟨hgroup', .inl ⟨hle, hdiffers⟩⟩
    have hsuffix : (chain.drop t.base.revision).filter (·.event.revision > stored.controlRevision) =
        chain.drop history.length := by
      have hfilter := hlinked.filter_revision stored.controlRevision
      rw [hrevision, List.drop_drop, Nat.add_sub_cancel' ht.passed] at hfilter
      rw [hrevision]
      exact hfilter
    dsimp only
    unfold prepareHeld
    rw [hgroup, hbacked.readTranscript, h.free hs, if_neg (by simpa [hrevision] using ht.passed),
      ok_bind, if_neg hforked]
    rw [hsuffix]
    by_cases hdone : chain.drop history.length = []
    · refine .inl ⟨?_, ?_⟩
      · rw [← hsplit, hdone, append_nil]
      · rw [hdone]
        exact ⟨_, rfl, rfl⟩
    · refine .inr ⟨next, hdone, happlied, ?_⟩
      rw [if_neg (by simpa using hdone), happlied]
      rfl

theorem Follows.catchUp (sender : Sender) (hunused : Unused g chain store) :
    Follows g chain l (store.receive ports l sender (.transcript t)) chain := by
  obtain ⟨rfl, c, hprepare, hcommit⟩ | ⟨next, hnonempty, happlied, hprepare⟩ :=
    h.prepare_answer hchain ht hgroup hreaches hopen hmember
  · rwa [receive_of_prepare hprepare hcommit]
  · obtain ⟨store', hcommit⟩ := h.commit hchain hunused happlied hnonempty
    have hreceive : store.receive ports l sender (.transcript t) = store' :=
      receive_of_prepare hprepare hcommit
    have htransition := prepareTranscript_transition hprepare
    have hlinked := hchain.drop history.length
    rw [← map_drop] at hlinked
    have hnextgroup := applyAll_group happlied hnonempty fun e he =>
      (hlinked.revision_of_mem (mem_map_of_mem he)).1
    obtain ⟨folded, hbacked⟩ := h.2.transition htransition hcommit
    rw [if_pos hnextgroup, h.split hchain] at hbacked
    rw [hreceive]
    refine hbacked.follows (fun _ he => he) fun s hs => ?_
    rw [(commitTransition_eq_ok hcommit).1, hnextgroup, Function.update_self] at hs
    cases hs
    subst hnextgroup
    exact h.2.next_free htransition

end CatchUp

/-! ## Runs -/

section Runs

variable {g : GroupId} {chain : List SignedGroupControlEvent}

theorem Tells.mono {n m : Nat} (h : Tells g chain n t) (hle : n ≤ m) : Tells g chain m t :=
  ⟨h.passed.trans hle, h.hash, h.told⟩

variable {store : GroupStore}

theorem Inv.setStore {w : World} (h : Inv g chain w) (d : Sender)
    {history added : List SignedGroupControlEvent}
    (hbefore : Follows g chain d.userId (w.stores d) history)
    (hafter : Follows g chain d.userId store (history ++ added)) :
    Inv g chain (w.setStore d store) := by
  have hgrows : ∀ d', (w.stores d').revision g ≤ ((w.setStore d store).stores d').revision g := by
    intro d'
    by_cases hd : d' = d
    · subst hd
      rw [World.setStore_self, hbefore.revision_eq, hafter.revision_eq, List.length_append]
      exact Nat.le_add_right _ _
    · rw [World.setStore_of_ne w hd]
  refine ⟨fun d' => ?_, fun d' request hr hg => (h.requests d' request hr hg).trans (hgrows d'),
    fun d' t ht hg => (h.answers d' t ht hg).mono (hgrows d')⟩
  by_cases hd : d' = d
  · subst hd
    exact ⟨history ++ added, by rw [World.setStore_self]; exact hafter⟩
  · rw [World.setStore_of_ne w hd]
    exact h.stores d'

theorem Inv.step (hchain : Linked g 0 none (links chain)) {w w' : World} (h : Inv g chain w)
    (hstep : Step g chain w w') : Inv g chain w' := by
  cases hstep with
  | receive d ports sender payload hports hpayload =>
    obtain ⟨history, hfollows⟩ := h.stores d
    have htells : ∀ t, payload = .transcript t → t.base.groupId = g →
        Tells g chain history.length t := fun t ht hg =>
      hfollows.revision_eq ▸ h.answers d t (hpayload t ht hg) hg
    obtain ⟨added, hafter⟩ := hfollows.receive sender hchain hports htells
    exact h.setStore d hfollows hafter
  | sign d e he =>
    obtain ⟨history, hfollows⟩ := h.stores d
    obtain ⟨added, hafter⟩ := hfollows.sign he
    exact h.setStore d hfollows hafter
  | converse d id =>
    obtain ⟨history, hfollows⟩ := h.stores d
    refine h.setStore d hfollows (?_ : Follows _ _ _ _ (history ++ []))
    rw [append_nil, GroupStore.converse]
    split
    · exact hfollows
    · exact ⟨hfollows.1, hfollows.2.accepted, hfollows.2.recorded, hfollows.2.state, hfollows.2.group⟩
  | request d request hasks =>
    refine ⟨h.stores, fun d' request' hr hg => ?_, h.answers⟩
    obtain heq | hr := mem_cons.mp hr
    · obtain ⟨rfl, rfl⟩ := Prod.mk.inj heq
      rw [hasks.revision, hg]
    · exact h.requests d' request' hr hg
  | answer d sender recipient request payload hrequest hanswer =>
    refine ⟨h.stores, h.requests, fun d' t ht hg => ?_⟩
    obtain heq | ht := mem_cons.mp ht
    · obtain ⟨rfl, rfl⟩ := Prod.mk.inj heq
      obtain ⟨history, hfollows⟩ := h.stores d
      obtain ⟨rfl, htells⟩ := hfollows.answer hchain (h.requests sender request hrequest) hanswer hg
      exact htells
    · exact h.answers d' t ht hg

theorem delivery_inductive (hchain : Linked g 0 none (links chain)) :
    (delivery g chain).Inductive (Inv g chain) where
  init := by
    intro w hw
    refine ⟨fun d => ⟨[], nofun, ?_⟩, ?_, ?_⟩
    · rw [hw.states d]
      refine ⟨.nil, hw.recorded d, ?_, nofun⟩
      rw [hw.states d]
      exact .none
    · rw [hw.requests]
      exact nofun
    · rw [hw.answers]
      exact nofun
  step := fun _ _ h hstep => h.step hchain hstep

theorem Follows.holds {l : UserId} {history : List SignedGroupControlEvent}
    (h : Follows g chain l store history) :
    store.states g = ((stateMachine l).fold none history).2 ∧
      store.rows g = history.map SignedGroupControlEvent.stored :=
  ⟨h.2.accepted.fold_eq.symm,
    by rw [GroupStore.rows, h.2.recorded, (stored_sorted h.2.linked).insertionSort_eq]⟩

/-- An answer brings its recipient as far as it reaches. -/
theorem Inv.answered (sender : Sender) (hchain : Linked g 0 none (links chain)) {w : World}
    (h : Inv g chain w) {d : Sender} {ports : Ports} (ht : (d, t) ∈ w.answers)
    (hgroup : t.base.groupId = g) (hports : Honest g chain ports)
    (hopen : t.entries.mapM ports.openEntry =
      .ok ((chain.take (t.base.revision + t.entries.length)).drop t.base.revision))
    (hunused : Unused g (chain.take (t.base.revision + t.entries.length)) (w.stores d))
    (hmember : (w.stores d).states g = none → ∃ s, ((stateMachine d.userId).fold none
      (chain.take (t.base.revision + t.entries.length))).2 = some s ∧ Active s.roster d.userId) :
    ∃ k, t.base.revision + t.entries.length ≤ k ∧ k ≤ chain.length ∧
      Follows g chain d.userId ((w.stores d).receive ports d.userId sender (.transcript t))
        (chain.take k) := by
  obtain ⟨history, hfollows⟩ := h.stores d
  have htells := hfollows.revision_eq ▸ h.answers d t ht hgroup
  obtain ⟨m, l, s, hm, hbase, hhistory, hactive, hentries⟩ := htells.told
  have hreach : t.base.revision + t.entries.length = m := by
    rw [hentries, List.length_map, List.length_drop, length_take_of_le hm]
    omega
  rw [hreach] at hopen hunused hmember ⊢
  by_cases hle : history.length ≤ m
  · -- the transcript reaches as far as the device: it is the whole of a shorter chain
    have hshort : Linked g 0 none (links (chain.take m)) := by
      unfold links
      rw [map_take]
      exact hchain.take m
    have hshorter : Follows g (chain.take m) d.userId (w.stores d) history := by
      refine ⟨fun e he => ?_, hfollows.2⟩
      rw [(hfollows.start hchain).1] at he
      exact List.take_subset_take_left chain hle he
    have htells' : Tells g (chain.take m) history.length t := by
      refine ⟨htells.passed, ?_, m, l, s, ?_, hbase, ?_, hactive, ?_⟩
      · rw [htells.hash, hashAt_take hbase]
      · rw [length_take_of_le hm]
      · rwa [List.take_take, Nat.min_self]
      · rwa [List.take_take, Nat.min_self]
    have hafter := hshorter.catchUp hshort htells' hgroup
      (by rw [hreach, length_take_of_le hm]) hopen hmember sender hunused
    exact ⟨m, le_rfl, hm, fun e he => List.mem_of_mem_take he, hafter.2⟩
  · obtain ⟨added, hafter⟩ := hfollows.receive sender hchain hports
      fun t' ht' _ => GroupSyncPayload.transcript.inj ht' ▸ htells
    obtain ⟨hstart, hlength⟩ := hafter.start hchain
    refine ⟨(history ++ added).length, ?_, hlength, ?_⟩
    · rw [List.length_append]
      omega
    · rw [← hstart]
      exact hafter

/-- In every run each device holds a beginning of the chain, its transcript and its state, and never
freezes the group. An answer brings a device that can open it as far as it reaches, unless an event
id is stored for another event or the group's id for another conversation; a device that holds
nothing of the group yet must be in it. -/
theorem delivery_one_chain (g : GroupId) (chain : List SignedGroupControlEvent) (l : UserId)
    (s : GroupState) (hchain : History (stateMachine l) chain (some s)) (hgroup : s.groupId = g)
    (w : World) (hw : (delivery g chain).Reachable w) :
    (∀ d, ∃ n ≤ chain.length,
      (w.stores d).states g = ((stateMachine d.userId).fold none (chain.take n)).2 ∧
      (w.stores d).rows g = (chain.take n).map SignedGroupControlEvent.stored ∧
      ∀ s, (w.stores d).states g = some s → isQuarantined s = false) ∧
    ∀ d sender t ports, (d, t) ∈ w.answers → t.base.groupId = g → Honest g chain ports →
      t.entries.mapM ports.openEntry =
        .ok ((chain.take (t.base.revision + t.entries.length)).drop t.base.revision) →
      Unused g (chain.take (t.base.revision + t.entries.length)) (w.stores d) →
      ((w.stores d).states g = none → ∃ s, ((stateMachine d.userId).fold none
        (chain.take (t.base.revision + t.entries.length))).2 = some s ∧
          Active s.roster d.userId) →
      ∃ k, t.base.revision + t.entries.length ≤ k ∧ k ≤ chain.length ∧
        ((w.stores d).receive ports d.userId sender (.transcript t)).states g =
          ((stateMachine d.userId).fold none (chain.take k)).2 ∧
        ((w.stores d).receive ports d.userId sender (.transcript t)).rows g =
          (chain.take k).map SignedGroupControlEvent.stored := by
  have hlinked := hgroup ▸ history_linked hchain
  have hinv := (delivery_inductive hlinked).reachable hw
  refine ⟨fun d => ?_, fun d sender t ports ht hg hports hopen hunused hmember => ?_⟩
  · obtain ⟨history, hfollows⟩ := hinv.stores d
    obtain ⟨hstart, hlength⟩ := hfollows.start hlinked
    refine ⟨history.length, hlength, ?_⟩
    rw [← hstart]
    exact ⟨hfollows.holds.1, hfollows.holds.2, fun s hs => hfollows.free hs⟩
  · obtain ⟨k, hreach, hk, hfollows⟩ :=
      hinv.answered sender hlinked ht hg hports hopen hunused hmember
    exact ⟨k, hreach, hk, hfollows.holds⟩

end Runs

/-! ## A run

The owner of `pair` creates and renames the group. Two devices of the other user ask for it; one of
them holds another group of the same owner, whose first event has the id of the second event here. -/

def ownerDevice : Sender := ⟨user 1, .fill 16 1⟩

def busyDevice : Sender := ⟨user 2, .fill 16 2⟩

def idleDevice : Sender := ⟨user 2, .fill 16 3⟩

def otherOpening : SignedGroupControlEvent :=
  { pairOpening with
    event := { pairOpening.event with
      eventId := .fill 16 2, groupId := .fill 32 8
      revision_pos := by decide, revision_le := by decide, first_iff := by decide
      create_iff := by decide }
    controlStateHash := .fill 32 3 }

def asked : StateReference := .start (.fill 32 9)

def answered : GroupTranscriptPayload :=
  ⟨asked, [pairOpening, renamed].map
    (GroupSignedControlBytes.fromStored ∘ SignedGroupControlEvent.stored)⟩

def signedWorld : World :=
  let start : World := ⟨fun _ => .empty, [], []⟩
  let created := start.setStore ownerDevice
    ((start.stores ownerDevice).signApplyAndCommit (user 1) pairOpening)
  let changed := created.setStore ownerDevice
    ((created.stores ownerDevice).signApplyAndCommit (user 1) renamed)
  changed.setStore busyDevice ((changed.stores busyDevice).receive (openAs otherOpening) (user 2)
    ownerDevice (.control (bytesOf (user 1))))

def answeredWorld : World :=
  { signedWorld with
    requests := [(idleDevice, asked), (busyDevice, asked)]
    answers := [(idleDevice, answered), (busyDevice, answered)] }

theorem openAs_eq {d e : SignedGroupControlEvent} {control : GroupSignedControlBytes}
    (h : (openAs d).openEntry control = .ok e) : e = d := by
  obtain ⟨devices, -, h⟩ := bind_eq_ok.mp h
  split at h
  · exact (Except.ok.inj h).symm
  · cases h

theorem answeredWorld_reachable :
    (delivery (.fill 32 9) [pairOpening, renamed]).Reachable answeredWorld := by
  have hstart : (delivery (.fill 32 9) [pairOpening, renamed]).Reachable
      ⟨fun _ => .empty, [], []⟩ :=
    .init ⟨fun _ => rfl, fun _ => rfl, rfl, rfl⟩
  have hcreated := hstart.step (.sign ownerDevice pairOpening fun _ => List.mem_cons_self)
  have hchanged := hcreated.step (.sign ownerDevice renamed fun _ => by simp)
  have hother : (delivery (.fill 32 9) [pairOpening, renamed]).Reachable signedWorld :=
    hchanged.step (.receive busyDevice (openAs otherOpening) ownerDevice
      (.control (bytesOf (user 1)))
      (fun control e hopen hg => by rw [openAs_eq hopen] at hg; exact absurd hg (by decide)) nofun)
  have hbusy := hother.step (.request busyDevice asked ⟨by decide, by decide⟩)
  have hidle := hbusy.step (.request idleDevice asked ⟨by decide, by decide⟩)
  have hanswer := hidle.step (.answer ownerDevice busyDevice busyDevice asked answered
    (by simp) rfl)
  exact hanswer.step (.answer ownerDevice idleDevice idleDevice asked answered (by simp) rfl)

def openPair (listed : Bool) : Ports where
  resolveAuthenticatedLiveDevices u := .ok (if listed then [⟨u, .fill 16 1, .fill 32 0⟩] else [])
  openControl control _ := .ok (if control.canonicalBytes = [0] then pairOpening else renamed)

theorem openPair_honest (listed : Bool) :
    Honest (.fill 32 9) [pairOpening, renamed] (openPair listed) := by
  intro control e h _
  obtain ⟨devices, -, h⟩ := bind_eq_ok.mp h
  split at h
  · cases h
    split <;> simp
  · cases h

theorem answered_opens : answered.entries.mapM (openPair true).openEntry =
    .ok [pairOpening, renamed] := rfl

theorem delivery_one_chain_pair : ∃ k, 2 ≤ k ∧ k ≤ 2 ∧
      ((answeredWorld.stores idleDevice).receive (openPair true) (user 2) ownerDevice
        (.transcript answered)).states (.fill 32 9) =
          ((stateMachine (user 2)).fold none ([pairOpening, renamed].take k)).2 ∧
      ((answeredWorld.stores idleDevice).receive (openPair true) (user 2) ownerDevice
        (.transcript answered)).rows (.fill 32 9) =
          ([pairOpening, renamed].take k).map SignedGroupControlEvent.stored :=
  (delivery_one_chain (.fill 32 9) [pairOpening, renamed] (user 1) pairRenamed pair_chain rfl
    answeredWorld answeredWorld_reachable).2 idleDevice ownerDevice answered (openPair true)
    (by simp [answeredWorld]) rfl (openPair_honest true) answered_opens
    ⟨by decide, (fun row hrow => by cases hrow), rfl⟩
    (fun _ => ⟨pairRenamed, by decide, roleMember 2 .member, by decide, rfl⟩)

/-- Both devices get the whole chain, and neither stores anything of it: the event id is taken on one
of them, and the other cannot open what a device signed that is no longer listed. -/
theorem head_not_reached : (delivery (.fill 32 9) [pairOpening, renamed]).Reachable answeredWorld ∧
    answeredWorld.answers = [(idleDevice, answered), (busyDevice, answered)] ∧
    answered.base.revision + answered.entries.length = [pairOpening, renamed].length ∧
    pairRenamed.roster (user 2) = some (roleMember 2 .member) ∧
    ((answeredWorld.stores busyDevice).receive (openPair true) (user 2) ownerDevice
      (.transcript answered)).rows (.fill 32 9) = [] ∧
    ((answeredWorld.stores idleDevice).receive (openPair false) (user 2) ownerDevice
      (.transcript answered)).rows (.fill 32 9) = [] :=
  ⟨answeredWorld_reachable, rfl, rfl, by decide, by decide, by decide⟩

end CommPlatform.Groups
