import CommPlatform.L5Groups.Freezing

/-!
# States the constructor refuses

The constructor of a group state counts every member on record and asks for
an owner unless the device has left. An addition is authorized by the active
members alone, and a quarantine rebuilds the state of a device that has left.
-/
namespace CommPlatform.Groups

open CommPlatform.Core GroupAuthorization

/-! ## Additions -/

section Additions

variable {f : GroupFields} {members added : List GroupMember} {actor : UserId}

theorem length_foldl_addToRoster : (added.foldl (addToRoster f) members).length =
    members.length + (added.filter fun m => (f.member m.userId).isNone).length := by
  induction added generalizing members with
  | nil => rfl
  | cons a added ih =>
    rw [List.foldl_cons, ih, addToRoster]
    cases h : f.member a.userId with
    | none => simp [h]; omega
    | some m => simp [h, replaceMember, length_replaceKey]

/-- What is allowed on the screen is allowed in a control event. -/
theorem canAdd_control {targets : List UserId} {forControl : Bool}
    (h : canAdd f actor targets forControl = true) : canAdd f actor targets true = true := by
  cases forControl with
  | true => exact h
  | false =>
    unfold canAdd at h ⊢
    split at h
    · cases h
    next hmay =>
    rw [if_neg fun hno => hmay ?_, h]
    simp only [Bool.or_eq_true, Bool.not_eq_true', admits, Bool.false_eq_true, if_false,
      if_true] at hno ⊢
    refine hno.imp_left fun hno => hno.imp_right fun hno => ?_
    unfold allowsControl at hno
    unfold allows permissionsFor
    cases hm : f.member actor with
    | none => rfl
    | some m =>
      rw [hm] at hno
      dsimp only at hno ⊢
      split
      · decide
      next hactive =>
      simp only [Bool.or_eq_true, not_or, Bool.not_eq_true', Bool.not_eq_false] at hactive
      simpa [hactive.1] using hno

end Additions

/-- An authorized addition to a state that any history folds to, signed on its head, is accepted
and makes everyone named active exactly if those never seen in the group still fit the roster. -/
theorem add_accepted_iff (l : UserId) (history : List SignedGroupControlEvent) (s : GroupState)
    (hs : ((stateMachine l).fold none history).2 = some s) (actor : UserId) (targets : List UserId)
    (forControl : Bool) (hcan : canAdd s.toGroupFields actor targets forControl = true)
    (members : List GroupMember) (htargets : members.map (·.userId) = targets)
    (hplain : ∀ m ∈ members, m.isActive = true ∧ m.role = .member)
    (e : SignedGroupControlEvent) (hop : e.event.operation = .addMembers members)
    (hsigner : e.event.signerUserId = actor) (hgroup : e.event.groupId = s.groupId)
    (hrevision : e.event.revision = s.controlRevision + 1)
    (hprevious : e.event.previousControlStateHash = some s.controlStateHash) :
    (∃ s', (stateMachine l).apply (some s) e = .accepted s' ∧
        ∀ u ∈ targets, Active s'.roster u) ↔
      s.members.length + (targets.filter fun u => (s.member u).isNone).length ≤ maximumMembers := by
  subst htargets hsigner
  have hheld := fold_held history s hs
  obtain ⟨next, hnext, hmetadata, hmembers⟩ : ∃ next,
      applyOperation l s.toGroupFields e.event = some next ∧ next.metadata = s.metadata ∧
        next.members = members.foldl (addToRoster s.toGroupFields) s.members := by
    have hroles : members.any (fun m => !m.isActive || m.role != .member) = false := by
      simpa using hplain
    have happlied : applyOperation l s.toGroupFields e.event = some (members.foldl
        (addMember s.toGroupFields l) ⟨s.metadata, s.members, s.lifecycle⟩) := by
      simp [applyOperation, hop, hroles, canAdd_control hcan]
    rw [foldl_addMember] at happlied
    exact ⟨_, happlied, rfl, rfl⟩
  obtain ⟨hactor, hchange, hnodup⟩ := applyOperation_change s.nodup hnext
  -- the signer is active, so the group has its owner, and an addition does not change that
  obtain howner | ⟨hremove, -⟩ := hchange.governed hactor hheld.governed
  swap
  · rw [hop] at hremove
    cases hremove
  have hcount := (countP_isActiveOwner hnodup).mpr howner
  have hquarantined : next.lifecycle.isQuarantined = false := by
    rw [(next_lifecycle hheld hnext).2]
    exact standing_isQuarantined _ _
  have hsome : (GroupState.make (nextFields s e next)).isSome = true ↔
      s.members.length + ((members.map (·.userId)).filter fun u => (s.member u).isNone).length ≤
        maximumMembers := by
    have hvalid := s.checked
    simp only [GroupFields.check, Bool.and_eq_true, decide_eq_true_eq] at hvalid
    have hlength := congrArg List.length hmembers
    rw [length_foldl_addToRoster] at hlength
    rw [make_isSome_eq, check_eq rfl hquarantined, GroupFields.sound]
    simp [nextFields, hcount, hnodup, hmetadata, hvalid.1.1.1.1.2, e.event.revision_pos, hlength,
      List.filter_map, Function.comp_def]
  rw [← hsome, Option.isSome_iff_exists]
  have hplace : s.head.place e.link = .next := Head.place_eq_next.mpr ⟨hgroup, hrevision, hprevious⟩
  have hextend := extendGroup_of_next hnext
  refine exists_congr fun s' => ⟨?_, ?_⟩
  · rintro ⟨haccepted, -⟩
    obtain ⟨hnone, -⟩ | ⟨t, ht, -, hok⟩ := ControlMachine.apply_accepted haccepted
    · cases hnone
    cases ht
    exact okOr_eq_ok.mp (hextend.symm.trans hok)
  · intro hmade
    rw [hmade] at hextend
    refine ⟨ControlMachine.apply_of_next hplace hextend, fun u hu => ?_⟩
    rw [GroupState.roster, GroupState.memberOf_make hmade]
    cases hchange with
    | added hop' hinactive hin hout =>
      rw [hop] at hop'
      cases hop'
      obtain ⟨m, hm, hactive, -⟩ := hin u hu
      exact ⟨m, hm, hactive⟩
    | left hop' | removed hop' | transferred hop' | roleChanged hop' | renamed hop' =>
      rw [hop] at hop'; cases hop'

/-- A third user fits. -/
theorem add_accepted_third : ∃ s', (stateMachine (user 1)).apply (some pair)
      (second (.addMembers [roleMember 3 .member]) rfl) = .accepted s' ∧
    ∀ u ∈ [user 3], Active s'.roster u :=
  (add_accepted_iff (user 1) [pairOpening] pair (by decide) (user 1) [user 3] false (by decide)
    [roleMember 3 .member] rfl (by decide) _ rfl rfl rfl rfl rfl).mpr (by decide)

def fullOpening : SignedGroupControlEvent :=
  opening (roleMember 1 .owner :: (List.range 49).map fun i => roleMember (.ofNat (i + 2)) .member)

def newcomer : SignedGroupControlEvent :=
  { second (.addMembers [roleMember 99 .member]) rfl with
    event.eventId := .fill 16 3
    event.revision := 3
    event.previousControlStateHash := some (.fill 32 2)
    event.revision_pos := by decide
    event.revision_le := by decide
    event.first_iff := by decide
    event.create_iff := by decide
    controlStateHash := .fill 32 3 }

/-- The owner removes one of fifty and may add another, but the addition is refused. -/
theorem newcomer_refused : ∃ s,
    ((stateMachine (user 1)).fold none [fullOpening, second (.removeMember (user 2)) rfl]).2 = some s ∧
      canAdd s.toGroupFields (user 1) [user 99] false = true ∧
      (stateMachine (user 1)).apply (some s) newcomer =
        .quarantined (some s) .invalidMembership := by
  have h : (((stateMachine (user 1)).fold none
      [fullOpening, second (.removeMember (user 2)) rfl]).2.any fun s =>
        canAdd s.toGroupFields (user 1) [user 99] false &&
          decide ((stateMachine (user 1)).apply (some s) newcomer =
            .quarantined (some s) .invalidMembership)) = true := by decide +kernel
  generalize ((stateMachine (user 1)).fold none _).2 = folded at h ⊢
  cases folded with
  | none => cases h
  | some s =>
    rw [Option.any_some, Bool.and_eq_true, decide_eq_true_eq] at h
    exact ⟨s, rfl, h⟩

/-! ## Quarantines -/

theorem prepare_freezes_stored {ports : Ports} {l : UserId} {store : GroupStore} {sender : Sender}
    {payload : GroupSyncPayload} {record : GroupQuarantineRecord} {c : Bool}
    (h : prepare ports l store sender payload = .ok (.change (.quarantine record false c))) :
    ∃ s, store.states record.groupId = some s := by
  cases payload with
  | control control =>
    obtain ⟨-, -, e, s, -, hgroup, hs, -⟩ := prepareControl_freezes h
    exact ⟨s, hgroup ▸ hs⟩
  | stateRequest request =>
    obtain ⟨_, hchange⟩ := prepareStateRequest_change h
    cases hchange
  | transcript transcript =>
    obtain ⟨events, s, held, -, -, hgroup, hs, -⟩ := prepareTranscript_freezes h
    exact ⟨s, hgroup ▸ hs⟩

/-- A quarantine that is prepared is committed exactly if it leaves the lifecycle alone or the
stored group has its owner. -/
theorem quarantine_commits_iff (ports : Ports) (l : UserId) (store : GroupStore) (sender : Sender)
    (payload : GroupSyncPayload) (record : GroupQuarantineRecord) (retain c : Bool)
    (h : prepare ports l store sender payload = .ok (.change (.quarantine record retain c))) :
    (∃ store', store.commit (.quarantine record retain c) = .ok store') ↔
      retain = true ∨ ∀ s, store.states record.groupId = some s →
        ∃ o, ∀ u, ActiveOwner s.roster u ↔ u = o := by
  cases retain with
  | true => simp [GroupStore.commit, GroupStore.commitQuarantine]
  | false =>
    obtain ⟨s, hs⟩ := prepare_freezes_stored h
    have hvalid := s.checked
    simp only [GroupFields.check, Bool.and_eq_true, decide_eq_true_eq] at hvalid
    have hmade : ∀ lifecycle : GroupLifecycle, lifecycle.isQuarantined = true →
        ((GroupState.make { s.toGroupFields with
          lifecycle, quarantineReason := some record.reason }).isSome = true ↔
          s.members.countP (·.isActiveOwner) = 1) := by
      intro lifecycle hquarantined
      have hleft : lifecycle ≠ .left := by rintro rfl; cases hquarantined
      rw [make_isSome_eq]
      simp [GroupFields.check, hquarantined, hleft, hvalid.1.1.1.1.1, hvalid.1.1.1.1.2,
        hvalid.1.1.1.2, s.nodup]
    simp only [hs, Option.some.injEq, forall_eq', Bool.false_eq_true, false_or]
    rw [← countP_isActiveOwner s.nodup, ← hmade (if record.reason = .siblingControl then
      .forkQuarantined else .controlQuarantined) (by split <;> rfl)]
    simp only [GroupStore.commit, GroupStore.commitQuarantine, hs, Bool.false_eq_true, if_false,
      okOr_some, ok_bind]
    generalize GroupState.make _ = made
    cases made with
    | none => exact ⟨by rintro ⟨_, ⟨⟩⟩, by rintro ⟨⟩⟩
    | some q => exact ⟨fun _ => rfl, fun _ => ⟨_, rfl⟩⟩

theorem quarantine_commits_pair : ∃ store',
    pairStore.commit (.quarantine ⟨.fill 32 9, .siblingControl, .fill 32 8⟩ false false) = .ok store' :=
  (quarantine_commits_iff (openAs forged) (user 1) pairStore ⟨user 7, .fill 16 1⟩
    (.control (bytesOf (user 7))) _ false false rfl).mpr (.inr fun s hs => by
      cases hs
      exact GroupState.unique_owner (by decide))

def departure : SignedGroupControlEvent :=
  { second (.removeMember (user 1)) rfl with
    event := { (second (.removeMember (user 1)) rfl).event with
      eventId := .fill 16 3, revision := 3, previousControlStateHash := some (.fill 32 2)
      revision_pos := by decide, revision_le := by decide, first_iff := by decide
      create_iff := by decide }
    controlStateHash := .fill 32 3 }

/-- The owner removes the other member and leaves; another event for the revision of the removal is
prepared as a fork and cannot be committed. -/
theorem departed_owner_blocks :
    let store := GroupStore.run (user 1) .empty [.signed pairOpening,
      .signed (second (.removeMember (user 2)) rfl), .signed departure]
    (store.states (.fill 32 9)).map (fun s => (s.controlRevision, s.lifecycle)) = some (3, .left) ∧
      prepare (openAs forged) (user 1) store ⟨user 7, .fill 16 1⟩ (.control (bytesOf (user 7))) =
        .ok (.change (.quarantine ⟨.fill 32 9, .siblingControl, .fill 32 8⟩ false false)) ∧
      store.commit (.quarantine ⟨.fill 32 9, .siblingControl, .fill 32 8⟩ false false) =
        .error .integrity :=
  ⟨by decide, rfl, rfl⟩

end CommPlatform.Groups
