import CommPlatform.L5Groups.Histories
import CommPlatform.L5Groups.Inbound

/-!
# Stored chains

What a device holds of a group: the rows of a history that its state
machine accepted, and the state the history led to, unless the group was
frozen since (`Backed`). The comparisons of the coordinator are read here as
facts about that history.

* `Backed.readTranscript`: the stored transcript is the history.
* `followsBase_iff`: the check of a transcript.
-/
namespace CommPlatform.Groups

open CommPlatform.Core ControlMachine

/-! ## Histories of the group machine -/

variable {e : SignedGroupControlEvent} {s : GroupState}

theorem GroupState.head_make {f : GroupFields} (h : GroupState.make f = some s) :
    s.head = ⟨f.groupId, f.controlRevision, f.controlStateHash⟩ := by
  rw [GroupState.head, GroupState.make_eq_some h]

variable {l : UserId}

theorem createGroup_head
    (h : createGroup l e = .ok s) : s.head = ⟨e.event.groupId, 1, e.controlStateHash⟩ := by
  unfold createGroup at h
  split at h
  · split at h
    · cases h
    split at h
    · cases h
    exact GroupState.head_make (okOr_eq_ok.mp h)
  · cases h

theorem extendGroup_head {s s' : GroupState} (h : extendGroup l s e = .ok s') :
    s'.head = ⟨s.groupId, e.event.revision, e.controlStateHash⟩ := by
  obtain ⟨next, -, h⟩ := bind_eq_ok.mp h
  exact GroupState.head_make (okOr_eq_ok.mp h)

theorem stateMachine_tracks (l : UserId) : Tracks (stateMachine l) where
  create := fun _ h => createGroup_head h
  extend := fun h => extendGroup_head h

abbrev links (events : List SignedGroupControlEvent) : List (Link GroupId StateHash) :=
  events.map SignedGroupControlEvent.link

theorem first_previous (h : e.link.revision = 1) : e.link.previous = none := e.event.first_iff.mp h

section History

variable {l : UserId} {history : List SignedGroupControlEvent} {s : GroupState}
  (h : History (stateMachine l) history (some s))
include h

theorem history_linked : Linked s.groupId 0 none (links history) :=
  h.linked (stateMachine_tracks l) fun _ => first_previous

theorem history_held : Held l s := by
  generalize hp : some s = p at h
  induction h generalizing s with
  | nil => cases hp
  | snoc hfront haccepted ih =>
    cases hp
    obtain ⟨-, -, hcreate⟩ | ⟨t, rfl, -, hextend⟩ := apply_accepted haccepted
    · exact createGroup_held hcreate
    · exact extendGroup_held (ih rfl) hextend

theorem history_free : isQuarantined s = false := by
  rw [isQuarantined, (history_held h).lifecycle, standing_isQuarantined]

end History

/-! ## Reading a stored chain -/

section Reading

variable {g : GroupId} {revision n k : Nat} {hash : Option StateHash}
  {events : List SignedGroupControlEvent}
  (h : Linked g revision hash (links events))
include h

theorem stored_sorted :
    (events.map SignedGroupControlEvent.stored).Pairwise fun a b => a.revision ≤ b.revision := by
  induction events generalizing revision hash with
  | nil => exact .nil
  | cons e events ih =>
    obtain ⟨-, hrevision, -, hrest⟩ := h
    refine List.pairwise_cons.mpr ⟨fun b hb => ?_, ih hrest⟩
    obtain ⟨e', he', rfl⟩ := List.mem_map.mp hb
    have hlater := (hrest.revision_of_mem (List.mem_map_of_mem he')).2.1
    change e.event.revision ≤ e'.event.revision
    change e.event.revision = _ at hrevision
    change _ < e'.event.revision at hlater
    omega

theorem chained_linked {after : Nat} {previous : Option StoredGroupControl}
    (hrevision : (previous.map (·.revision)).getD after = revision)
    (hhash : ∀ p, previous = some p → hash = some p.controlStateHash) :
    GroupStore.chained after previous (events.map SignedGroupControlEvent.stored) = true := by
  induction events generalizing revision hash previous with
  | nil => rfl
  | cons e events ih =>
    obtain ⟨-, hnext, hprevious, hrest⟩ := h
    simp only [List.map_cons, GroupStore.chained, Bool.and_eq_true]
    refine ⟨⟨?_, ?_⟩, ih hrest ?_ ?_⟩
    · rw [hrevision, beq_iff_eq]
      exact hnext
    · cases previous with
      | none => rfl
      | some p =>
        rw [beq_iff_eq]
        exact hprevious.trans (hhash p rfl)
    · exact hnext
    · intro p hp
      cases hp
      rfl

omit h

theorem followsBase_iff : followsBase g revision hash events = true ↔
    Linked g revision hash (links events) := by
  induction events generalizing revision hash with
  | nil => exact ⟨fun _ => trivial, fun _ => rfl⟩
  | cons e events ih =>
    simp only [followsBase, List.map_cons, Linked, Bool.and_eq_true, beq_iff_eq, and_assoc, ih]
    refine and_congr_right fun _ => and_congr_right fun hrevision => ?_
    rw [hrevision]
    rfl

theorem heldHash_linked (h : Linked g revision hash (links events))
    (hk : revision < k) : heldHash (events.map SignedGroupControlEvent.stored) k =
      hashAt (links events) (k - revision) := by
  induction events generalizing revision hash with
  | nil => simp [heldHash, hashAt]
  | cons e events ih =>
    obtain ⟨-, hrevision, -, hrest⟩ := h
    change e.event.revision = _ at hrevision
    rw [hashAt, if_neg (by omega)]
    by_cases hlast : k = revision + 1
    · subst hlast
      simp [heldHash, SignedGroupControlEvent.stored, hrevision, SignedGroupControlEvent.link]
    · have hskip : heldHash ((e :: events).map SignedGroupControlEvent.stored) k =
          heldHash (events.map SignedGroupControlEvent.stored) k := by
        rw [List.map_cons, heldHash, List.find?_cons_of_neg, heldHash]
        simpa [SignedGroupControlEvent.stored, hrevision] using fun h => hlast h.symm
      rw [hskip, ih hrest (by omega), hashAt, if_neg (by omega),
        show k - revision - 1 = (k - (revision + 1) - 1) + 1 by omega]
      rfl

end Reading

/-! ## Backed stores -/

structure Frozen (s folded : GroupState) : Prop where
  quarantined : isQuarantined s = true
  head : s.head = folded.head
  roster : s.roster = folded.roster

/-- The store of a device of `l` holds a history of the group and what it led to. -/
structure Backed (l : UserId) (store : GroupStore) (g : GroupId)
    (history : List SignedGroupControlEvent) (folded : Option GroupState) : Prop where
  accepted : History (stateMachine l) history folded
  recorded : store.recorded g = history.map SignedGroupControlEvent.stored
  state : Option.Rel (fun s f => s = f ∨ Frozen s f) (store.states g) folded
  group : ∀ f, folded = some f → f.groupId = g

section Backed

variable {l : UserId} {store : GroupStore} {g : GroupId} {history : List SignedGroupControlEvent}
  {folded : Option GroupState} {s f : GroupState}

theorem Backed.linked (h : Backed l store g history folded) : Linked g 0 none (links history) := by
  cases folded with
  | none =>
    rw [h.accepted.eq_nil]
    trivial
  | some f =>
    rw [← h.group f rfl]
    exact history_linked h.accepted

theorem Backed.readTranscript (h : Backed l store g history folded) (n : Nat) :
    store.readTranscript g n = .ok ((history.drop n).map SignedGroupControlEvent.stored) := by
  have hlinked := h.linked
  have hrows : store.rows g = history.map SignedGroupControlEvent.stored := by
    rw [GroupStore.rows, h.recorded, (stored_sorted hlinked).insertionSort_eq]
  have hlater : (store.rows g).filter (·.revision > n) =
      (history.drop n).map SignedGroupControlEvent.stored := by
    rw [hrows, List.filter_map]
    exact congrArg _ (hlinked.filter_revision n)
  have hdrop := hlinked.drop n
  rw [← List.map_drop] at hdrop
  unfold GroupStore.readTranscript
  rw [hlater]
  exact if_pos (chained_linked hdrop rfl fun _ hnone => by cases hnone)

theorem Backed.head (h : Backed l store g history (some f)) : f.controlRevision = history.length ∧
      hashAt (links history) history.length = some f.controlStateHash := by
  obtain ⟨hnone, -⟩ | ⟨f', front, e, hsome, hevents, hlength, -, hhash⟩ :=
    h.accepted.head (stateMachine_tracks l)
  · cases hnone
  · cases hsome
    refine ⟨hlength, ?_⟩
    subst hevents
    have hlast : e.link.hash = f.controlStateHash := hhash.symm
    rw [hashAt]
    simpa using hlast

theorem Backed.kept (h : Backed l store g history folded) (hs : store.states g = some s)
    (hfree : isQuarantined s = false) : folded = some s := by
  have hstate := h.state
  rw [hs] at hstate
  cases hstate with
  | some hstands =>
    obtain rfl | hfrozen := hstands
    · rfl
    · rw [hfrozen.quarantined] at hfree
      cases hfree

theorem Backed.fresh (h : Backed l store g history folded) (hs : store.states g = none) :
    folded = none := by
  have hstate := h.state
  rw [hs] at hstate
  cases hstate
  rfl

theorem history_applyAll {p : Option GroupState} {controls : List SignedGroupControlEvent}
    (h : History (stateMachine l) history folded) (happlied : applyAll l folded controls = .ok p) :
    History (stateMachine l) (history ++ controls) p := by
  induction controls generalizing history folded with
  | nil =>
    cases happlied
    rwa [List.append_nil]
  | cons e controls ih =>
    unfold applyAll at happlied
    split at happlied
    · next next haccepted =>
      rw [← List.singleton_append, ← List.append_assoc]
      exact ih (.snoc h haccepted) happlied
    · cases happlied

end Backed

/-! ## What a payload changes -/

def opened (ports : Ports) : GroupSyncPayload → List SignedGroupControlEvent
  | .control control => (ports.openEntry control).toOption.toList
  | .stateRequest _ => []
  | .transcript transcript => ((transcript.entries.mapM ports.openEntry).toOption).getD []

/-- A transition the machine made of some of these events, from what is stored. -/
structure Transition (l : UserId) (store : GroupStore) (events : List SignedGroupControlEvent)
    (expected : Option GroupState) (next : GroupState) (controls : List SignedGroupControlEvent) :
    Prop where
  stored : ∃ g, expected = store.states g ∧ ∀ e ∈ controls, e.event.groupId = g
  free : ∀ s, expected = some s → isQuarantined s = false
  applied : applyAll l expected controls = .ok (some next)
  nonempty : controls ≠ []
  given : ∀ e ∈ controls, e ∈ events

section Prepare

variable {ports : Ports} {l : UserId} {store : GroupStore} {sender : Sender}
  {expected : Option GroupState} {next : GroupState} {controls : List SignedGroupControlEvent}
  {c : Bool} {transcript : GroupTranscriptPayload}

theorem prepareControl_transition {control : GroupSignedControlBytes}
    (h : prepareControl ports l store sender control =
      .ok (.change (.transition expected next controls c))) :
    Transition l store (opened ports (.control control)) expected next controls := by
  obtain ⟨-, h⟩ := unit_bind_eq_ok.mp h
  obtain ⟨signed, hopen, h⟩ := bind_eq_ok.mp h
  dsimp only at h
  split at h
  · cases h
  next hfree =>
  split at h
  · next state happly =>
    split at h
    · cases h
    cases h
    refine ⟨⟨_, rfl, by simp⟩, fun s hs => ?_, ?_, by simp, ?_⟩
    · rw [hs] at hfree
      simpa using hfree
    · unfold applyAll
      rw [happly]
      rfl
    · intro e he
      obtain rfl := List.mem_singleton.mp he
      simp [opened, hopen, Except.toOption]
  · cases h
  · obtain ⟨held, -, h⟩ := bind_eq_ok.mp h
    split at h <;> cases h
  · cases h
  · cases h

variable {all : List SignedGroupControlEvent}

theorem prepareHeld_transition {stored : GroupState}
    (h : prepareHeld l store stored transcript all =
      .ok (.change (.transition expected next controls c))) :
    expected = some stored ∧ isQuarantined stored = false ∧ controls ≠ [] ∧
      controls = all.filter (·.event.revision > stored.controlRevision) ∧
      applyAll l (some stored) controls = .ok (some next) := by
  unfold prepareHeld at h
  split at h
  · cases h
  next hfree =>
  obtain ⟨held, -, h⟩ := bind_eq_ok.mp h
  split at h
  · cases h
  dsimp only at h
  split at h
  · cases h
  next hnonempty =>
  split at h
  · cases h
  · cases h
  · next next' happlied =>
    cases h
    simp only [Bool.or_eq_true, not_or, Bool.not_eq_true] at hfree
    exact ⟨rfl, hfree.1, by simpa using hnonempty, rfl, happlied⟩

theorem bootstrap_transition
    (h : bootstrap l transcript all = .change (.transition expected next controls c)) :
    expected = none ∧ controls = all ∧ controls ≠ [] ∧
      applyAll l none controls = .ok (some next) := by
  unfold bootstrap at h
  split at h
  · cases h
  next hnonempty =>
  split at h
  · cases h
  · cases h
  · cases h
  · next next' happlied =>
    split at h
    · cases h
    cases h
    simp only [Bool.or_eq_true, not_or, List.isEmpty_iff] at hnonempty
    exact ⟨rfl, rfl, hnonempty.2, happlied⟩

theorem prepareTranscript_transition (h : prepareTranscript ports l store transcript =
      .ok (.change (.transition expected next controls c))) :
    Transition l store (opened ports (.transcript transcript)) expected next controls := by
  obtain ⟨all, hopen, h⟩ := bind_eq_ok.mp h
  obtain ⟨hfollows, h⟩ := unit_bind_eq_ok.mp h
  have hlinked := followsBase_iff.mp (by simpa using hfollows)
  have hgroup : ∀ e ∈ all, e.event.groupId = transcript.base.groupId := fun e he =>
    (hlinked.revision_of_mem (List.mem_map_of_mem he)).1
  have hopened : ∀ e ∈ all, e ∈ opened ports (.transcript transcript) := by
    intro e he
    rw [opened, hopen]
    exact he
  split at h
  · next hnone =>
    obtain ⟨rfl, rfl, hnonempty, happlied⟩ := bootstrap_transition (Except.ok.inj h)
    exact ⟨⟨_, hnone.symm, hgroup⟩, by simp, happlied, hnonempty, hopened⟩
  · next stored hstored =>
    obtain ⟨rfl, hfree, hnonempty, rfl, happlied⟩ := prepareHeld_transition h
    refine ⟨⟨_, hstored.symm, fun e he => hgroup e (List.mem_of_mem_filter he)⟩, ?_, happlied,
      hnonempty, fun e he => hopened e (List.mem_of_mem_filter he)⟩
    intro s hs
    cases hs
    exact hfree

theorem prepareStateRequest_change {request : StateReference} {change : PreparedGroupInboxCommit}
    (h : prepareStateRequest l store sender request = .ok (.change change)) :
    ∃ payload, change = .outbound payload sender := by
  unfold prepareStateRequest at h
  split at h
  · cases h
  split at h
  · cases h
  obtain ⟨transcript, -, h⟩ := bind_eq_ok.mp h
  obtain ⟨-, h⟩ := unit_bind_eq_ok.mp h
  dsimp only at h
  split at h <;> cases h
  exact ⟨_, rfl⟩

theorem prepare_transition {payload : GroupSyncPayload} (h : prepare ports l store sender payload =
      .ok (.change (.transition expected next controls c))) :
    Transition l store (opened ports payload) expected next controls := by
  cases payload with
  | control control => exact prepareControl_transition h
  | stateRequest request => exact nomatch prepareStateRequest_change h
  | transcript transcript => exact prepareTranscript_transition h

end Prepare

/-! ## Committing -/

section Commit

variable {l : UserId} {store store' : GroupStore} {g : GroupId}
  {controls : List SignedGroupControlEvent}

theorem insertControls_eq_ok {rows rows' : List (GroupId × StoredGroupControl)}
    (h : GroupStore.insertControls g controls rows = .ok rows') :
    rows' = rows ++ controls.map fun e => (g, e.stored) := by
  induction controls generalizing rows with
  | nil =>
    cases h
    simp
  | cons e controls ih =>
    unfold GroupStore.insertControls at h
    split at h
    · cases h
    rw [ih h, List.map_cons, List.append_assoc, List.singleton_append]

variable {next : GroupState}

theorem commitTransition_eq_ok {expected : Option GroupState}
    (h : store.commitTransition expected next controls = .ok store') :
    store'.states = Function.update store.states next.groupId (some next) ∧
      store'.controls = store.controls ++ controls.map fun e => (next.groupId, e.stored) := by
  obtain ⟨first, -, h⟩ := bind_eq_ok.mp h
  obtain ⟨last, -, h⟩ := bind_eq_ok.mp h
  obtain ⟨-, h⟩ := unit_bind_eq_ok.mp h
  have hinsert : (do
      failIf (store.foreign next.groupId) CommitFailure.integrity
      let rows ← GroupStore.insertControls next.groupId controls store.controls
      return { store.setState next.groupId next with controls := rows }) = Except.ok store' := by
    split at h
    · cases h
    · exact h
    · cases h
    · exact (unit_bind_eq_ok.mp h).2
  obtain ⟨rows, hrows, hstore⟩ := bind_eq_ok.mp (unit_bind_eq_ok.mp hinsert).2
  cases hstore
  exact ⟨rfl, insertControls_eq_ok hrows⟩

theorem applyAll_group {p : Option GroupState}
    (happlied : applyAll l p controls = .ok (some next)) (hnonempty : controls ≠ [])
    (hgroup : ∀ e ∈ controls, e.event.groupId = g) : next.groupId = g := by
  induction controls generalizing p with
  | nil => exact absurd rfl hnonempty
  | cons e controls ih =>
    unfold applyAll at happlied
    split at happlied
    · next made haccepted =>
      cases controls with
      | nil =>
        cases Except.ok.inj happlied
        have hhead := (stateMachine_tracks l).head haccepted
        exact (congrArg Head.id hhead).trans (hgroup e List.mem_cons_self)
      | cons e' rest =>
        exact ih happlied (List.cons_ne_nil _ _) fun d hd => hgroup d (List.mem_cons_of_mem _ hd)
    · cases happlied

variable {events history : List SignedGroupControlEvent} {folded : Option GroupState}

theorem Transition.group {expected : Option GroupState}
    (h : Transition l store events expected next controls) :
    expected = store.states next.groupId := by
  obtain ⟨⟨g, hexpected, hgroup⟩, -, happlied, hnonempty, -⟩ := h
  rw [applyAll_group happlied hnonempty hgroup]
  exact hexpected

theorem recorded_append {g' : GroupId}
    (hcontrols : store'.controls = store.controls ++ controls.map fun e => (g', e.stored)) :
    store'.recorded g = store.recorded g ++
      if g' = g then controls.map SignedGroupControlEvent.stored else [] := by
  unfold GroupStore.recorded
  rw [hcontrols, List.filter_append, List.map_append]
  congr 1
  split
  · next heq =>
    rw [List.filter_eq_self.mpr (by simp [heq]), List.map_map]
    rfl
  · next hne =>
    rw [List.filter_eq_nil_iff.mpr (by simp [hne]), List.map_nil]

theorem Backed.expected {expected : Option GroupState}
    (h : Backed l store next.groupId history folded)
    (ht : Transition l store events expected next controls) : folded = expected := by
  rw [ht.group]
  cases hs : store.states next.groupId with
  | none => exact h.fresh hs
  | some s => exact h.kept hs (ht.free s (ht.group.trans hs))

theorem Backed.next_free {expected : Option GroupState}
    (h : Backed l store next.groupId history folded)
    (ht : Transition l store events expected next controls) : isQuarantined next = false := by
  have hhistory := h.accepted
  rw [h.expected ht] at hhistory
  exact history_free (history_applyAll hhistory ht.applied)

theorem sign_cases (l : UserId) (store : GroupStore) (e : SignedGroupControlEvent) :
    store.signApplyAndCommit l e = store ∨ ∃ next,
      Transition l store [e] (store.states e.event.groupId) next [e] ∧
      store.commitTransition (store.states e.event.groupId) next [e] =
        .ok (store.signApplyAndCommit l e) := by
  unfold GroupStore.signApplyAndCommit
  dsimp only
  split
  · exact .inl rfl
  next hactive =>
  split
  · next next haccepted =>
    split
    · next store' hcommit =>
      refine .inr ⟨next, ⟨⟨_, rfl, by simp⟩, fun s hs => ?_, ?_, by simp, fun _ h => h⟩, hcommit⟩
      · rw [hs] at hactive
        have hlifecycle : s.lifecycle = .active := by simpa using hactive
        rw [isQuarantined, hlifecycle]
        rfl
      · rw [applyAll, haccepted]
        rfl
    · exact .inl rfl
  · exact .inl rfl

/-- What reaches the store of a device: a payload, with what its ports answer then, an own change,
or a conversation of another kind. -/
inductive Input
  | received (ports : Ports) (sender : Sender) (payload : GroupSyncPayload)
  | signed (e : SignedGroupControlEvent)
  | converse (id : GroupId)

def Input.brings : Input → List SignedGroupControlEvent
  | .received ports _ payload => opened ports payload
  | .signed e => [e]
  | .converse _ => []

def GroupStore.handle (l : UserId) (store : GroupStore) : Input → GroupStore
  | .received ports sender payload => store.receive ports l sender payload
  | .signed e => store.signApplyAndCommit l e
  | .converse id => store.converse id

def GroupStore.run (l : UserId) (store : GroupStore) (inputs : List Input) : GroupStore :=
  inputs.foldl (handle l) store

theorem Backed.empty : Backed l .empty g [] none :=
  ⟨.nil, rfl, .none, by simp⟩

variable (h : Backed l store g history folded)
include h

theorem Backed.transition {expected : Option GroupState}
    (ht : Transition l store events expected next controls)
    (hcommit : store.commitTransition expected next controls = .ok store') :
    ∃ folded', Backed l store' g (history ++ if next.groupId = g then controls else []) folded' := by
  obtain ⟨hstates, hcontrols⟩ := commitTransition_eq_ok hcommit
  have hrecorded := recorded_append (g := g) hcontrols
  by_cases hg : next.groupId = g
  · subst hg
    obtain rfl := h.expected ht
    rw [if_pos rfl] at hrecorded ⊢
    rw [h.recorded, ← List.map_append] at hrecorded
    refine ⟨some next, history_applyAll h.accepted ht.applied, hrecorded, ?_, ?_⟩
    · rw [hstates, Function.update_self]
      exact .some (.inl rfl)
    · intro f hf
      rw [Option.some.inj hf]
  · rw [if_neg hg] at hrecorded ⊢
    rw [List.append_nil] at hrecorded ⊢
    refine ⟨folded, h.accepted, hrecorded.trans h.recorded, ?_, h.group⟩
    rw [hstates, Function.update_of_ne (Ne.symm hg)]
    exact h.state

theorem Backed.quarantine {record : GroupQuarantineRecord} {retainLifecycle : Bool}
    (hcommit : store.commitQuarantine record retainLifecycle = .ok store') :
    Backed l store' g history folded := by
  unfold GroupStore.commitQuarantine at hcommit
  split at hcommit
  · cases hcommit
    exact h
  obtain ⟨s, hs, hcommit⟩ := bind_eq_ok.mp hcommit
  obtain ⟨q, hq, hcommit⟩ := bind_eq_ok.mp hcommit
  cases hcommit
  rw [okOr_eq_ok] at hs hq
  refine ⟨h.accepted, h.recorded, ?_, h.group⟩
  by_cases hg : record.groupId = g
  · subst hg
    have hstate := h.state
    rw [hs] at hstate
    cases hstate with
    | @some _ f hstands =>
      show Option.Rel _ (Function.update store.states record.groupId (some q) record.groupId) _
      rw [Function.update_self]
      refine .some (.inr ⟨?_, ?_, ?_⟩)
      · rw [isQuarantined, GroupState.make_eq_some hq]
        split <;> rfl
      · rw [GroupState.head_make hq]
        obtain rfl | hfrozen := hstands
        · rfl
        · exact hfrozen.head
      · rw [GroupState.roster, GroupState.memberOf_make hq]
        obtain rfl | hfrozen := hstands
        · rfl
        · exact hfrozen.roster
  · show Option.Rel _ (Function.update store.states record.groupId (some q) g) folded
    rw [Function.update_of_ne (Ne.symm hg)]
    exact h.state

/-- Whatever a device receives, its history of a group grows by events it opened. -/
theorem Backed.receive (ports : Ports) (sender : Sender) (payload : GroupSyncPayload) :
    ∃ added folded', Backed l (store.receive ports l sender payload) g (history ++ added) folded' ∧
      ∀ e ∈ added, e ∈ opened ports payload := by
  have hsame : ∃ added folded', Backed l store g (history ++ added) folded' ∧
      ∀ e ∈ added, e ∈ opened ports payload :=
    ⟨[], folded, by rwa [List.append_nil], nofun⟩
  unfold GroupStore.receive
  split
  · next commit hprepare =>
    split
    · next store' hcommit =>
      cases commit with
      | transition expected next controls c =>
        have ht := prepare_transition hprepare
        obtain ⟨folded', hbacked⟩ := h.transition ht hcommit
        refine ⟨_, folded', hbacked, fun e he => ?_⟩
        split at he
        · exact ht.given e he
        · cases he
      | quarantine record retainLifecycle c =>
        exact ⟨[], folded, by rw [List.append_nil]; exact h.quarantine hcommit, nofun⟩
      | _ =>
        cases hcommit
        exact hsame
    · exact hsame
  · exact hsame

theorem Backed.converse (id : GroupId) : Backed l (store.converse id) g history folded := by
  unfold GroupStore.converse
  split
  · exact h
  · exact ⟨h.accepted, h.recorded, h.state, h.group⟩

theorem Backed.handle (input : Input) : ∃ added folded',
    Backed l (store.handle l input) g (history ++ added) folded' ∧
      ∀ e ∈ added, e ∈ input.brings := by
  cases input with
  | received ports sender payload => exact h.receive ports sender payload
  | converse id => exact ⟨[], folded, by rw [List.append_nil]; exact h.converse id, by simp⟩
  | signed e =>
    obtain hsame | ⟨next, ht, hcommit⟩ := sign_cases l store e
    · exact ⟨[], folded, by rwa [List.append_nil, GroupStore.handle, hsame], by simp⟩
    · obtain ⟨folded', hbacked⟩ := h.transition ht hcommit
      refine ⟨_, folded', hbacked, fun d hd => ?_⟩
      split at hd
      · exact hd
      · cases hd

theorem Backed.run (inputs : List Input) : ∃ added folded',
    Backed l (store.run l inputs) g (history ++ added) folded' ∧
      ∀ e ∈ added, ∃ i ∈ inputs, e ∈ i.brings := by
  refine inputs.foldlRecOn (motive := fun s => ∃ added folded',
    Backed l s g (history ++ added) folded' ∧ ∀ e ∈ added, ∃ i ∈ inputs, e ∈ i.brings)
    _ ?_ fun store ih i hi => ?_
  · exact ⟨[], folded, by rwa [List.append_nil], by simp⟩
  obtain ⟨added, _, h, hfrom⟩ := ih
  obtain ⟨more, folded', h', hmore⟩ := h.handle i
  rw [List.append_assoc] at h'
  refine ⟨_, folded', h', fun e he => ?_⟩
  obtain he | he := List.mem_append.mp he
  · exact hfrom e he
  · exact ⟨i, hi, hmore e he⟩

theorem Backed.stored_head : (store.states g).map GroupState.head = folded.map GroupState.head := by
  have hstate := h.state
  generalize store.states g = stored at hstate
  cases hstate with
  | none => rfl
  | some hstands =>
    obtain rfl | hfrozen := hstands
    · rfl
    · exact congrArg some hfrozen.head

end Commit

/-- In every run of a device it holds one accepted history of each group, made of events it signed
or opened, and only ever adds to it. -/
theorem received_one_history (l : UserId) (g : GroupId) (inputs later : List Input) :
    let store := GroupStore.run l .empty inputs
    ∃ history added folded folded', Backed l store g history folded ∧
      Backed l (store.run l later) g (history ++ added) folded' ∧
      (∀ e ∈ history, ∃ i ∈ inputs, e ∈ i.brings) ∧ ∀ e ∈ added, ∃ i ∈ later, e ∈ i.brings := by
  obtain ⟨history, folded, h, hfrom⟩ := Backed.empty.run inputs
  obtain ⟨added, folded', h', hlater⟩ := h.run later
  exact ⟨history, added, folded, folded', h, h', hfrom, hlater⟩

end CommPlatform.Groups
