import CommPlatform.L5Groups.Rosters

/-!
# Histories of a group

What stays true of a group whose events are folded one after the other
(`Held`): the lifecycle of a device is its user's standing in the roster,
and a group with members has one owner.
-/
namespace CommPlatform.Groups

open CommPlatform.Core

/-! ## Owners -/

section Owners

variable {members : List GroupMember} {u : UserId}

theorem mem_owners (hnodup : (members.map (·.userId)).Nodup) :
    u ∈ (members.filter (·.isActiveOwner)).map (·.userId) ↔ ActiveOwner (memberOf members) u := by
  simp only [List.mem_map, List.mem_filter, GroupMember.isActiveOwner, GroupMember.isActive,
    Bool.and_eq_true, beq_iff_eq]
  constructor
  · rintro ⟨m, ⟨hin, hactive, hrole⟩, hid⟩
    exact ⟨m, (memberOf_eq_some hnodup).mpr ⟨hin, hid⟩, hactive, hrole⟩
  · rintro ⟨m, hm, hactive, hrole⟩
    obtain ⟨hin, hid⟩ := (memberOf_eq_some hnodup).mp hm
    exact ⟨m, ⟨hin, hactive, hrole⟩, hid⟩

theorem countP_isActiveOwner (hnodup : (members.map (·.userId)).Nodup) :
    members.countP (·.isActiveOwner) = 1 ↔ ∃ o, ∀ u, ActiveOwner (memberOf members) u ↔ u = o := by
  have hsub : ((members.filter (·.isActiveOwner)).map (·.userId)).Nodup :=
    hnodup.sublist (List.filter_sublist.map _)
  have hlength : members.countP (·.isActiveOwner) =
      ((members.filter (·.isActiveOwner)).map (·.userId)).length := by
    rw [List.length_map, List.countP_eq_length_filter]
  rw [hlength, List.length_eq_one_iff]
  refine exists_congr fun o => ?_
  constructor
  · intro hlist u
    rw [← mem_owners hnodup, hlist, List.mem_singleton]
  · intro howner
    refine List.perm_singleton.mp ((List.perm_ext_iff_of_nodup hsub (List.nodup_singleton o)).mpr ?_)
    intro u
    rw [mem_owners hnodup, howner, List.mem_singleton]

end Owners

/-- A group is governed as long as it has members: it has one owner. -/
def Governed (r : Roster) : Prop :=
  (∃ o, ∀ u, ActiveOwner r u ↔ u = o) ∨ ∀ u, ¬ Active r u

theorem ActiveOwner.active {r : Roster} {u : UserId} (h : ActiveOwner r u) : Active r u := by
  obtain ⟨m, hm, hactive, -⟩ := h
  exact ⟨m, hm, hactive⟩

section Changes

variable {actor u : UserId} {op : GroupControlOperation} {old new : Roster}

theorem activeOwner_congr (h : new u = old u) : ActiveOwner new u ↔ ActiveOwner old u := by
  rw [ActiveOwner, ActiveOwner, h]

/-- Someone becomes the owner only when the owner hands the group over. -/
theorem Change.becomes_owner (h : Change actor op old new) (hactor : Active old actor)
    (hnew : ActiveOwner new u) (hold : ¬ ActiveOwner old u) :
    ActiveOwner old actor ∧ op = .changeRole u .owner ∧
      ∃ m, new actor = some m ∧ m.membership = .active ∧ m.role = .admin := by
  have hsame : new u ≠ old u := fun heq => hold ((activeOwner_congr heq).mp hnew)
  obtain ⟨n, hn, hactive, hrole⟩ := hnew
  cases h with
  | added hop hinactive hin hout =>
    obtain ⟨m, hm, -, hmember⟩ := hin u (by_contra fun hu => hsame (hout u hu))
    cases hm.symm.trans hn
    rw [hmember] at hrole
    cases hrole
  | left hop hm hlast hin hout =>
    obtain rfl : u = actor := by_contra fun hu => hsame (hout u hu)
    cases hin.symm.trans hn
    cases hactive
  | @removed target a m hop hne ha hm hmactive howner hrank hin hout =>
    obtain rfl : u = target := by_contra fun hu => hsame (hout u hu)
    cases hin.symm.trans hn
    cases hactive
  | @transferred target a m hop hne ha howner hm hmactive hnewactor hin hout =>
    obtain ⟨a', ha', hactive'⟩ := hactor
    cases ha.symm.trans ha'
    by_cases hu : u = actor
    · subst hu
      cases hnewactor.symm.trans hn
      cases hrole
    obtain rfl : u = target := by_contra fun hu' => hsame (hout u hu hu')
    exact ⟨⟨a, ha, hactive', howner⟩, hop, _, hnewactor, hactive', rfl⟩
  | @roleChanged target role m hop hnotowner howner hm hmowner hin hout =>
    obtain rfl : u = target := by_contra fun hu => hsame (hout u hu)
    cases hin.symm.trans hn
    exact absurd hrole hnotowner
  | renamed hop hout => exact absurd (hout u) hsame

variable {m : GroupMember}

theorem nobody_remains (hlast : ∀ v, Active old v → v = actor)
    (hin : new actor = some { m with membership := .left })
    (hout : ∀ v, v ≠ actor → new v = old v) : ¬ Active new u := by
  rintro ⟨m', hm', hactive⟩
  by_cases hu : u = actor
  · subst hu
    cases hin.symm.trans hm'
    cases hactive
  · exact hu (hlast u ⟨m', (hout u hu).symm.trans hm', hactive⟩)

variable (h : Change actor op old new)
include h

/-- An owner stops being one only by handing the group over or by leaving. -/
theorem Change.loses_owner (hold : ActiveOwner old u) (hnew : ¬ ActiveOwner new u) :
    u = actor ∧ ((∃ target, op = .changeRole target .owner) ∨
      op = .removeMember u ∧ (∀ v, Active old v → v = u) ∧ ∀ v, ¬ Active new v) := by
  have hsame : new u ≠ old u := fun heq => hnew ((activeOwner_congr heq).mpr hold)
  obtain ⟨n, hn, hactive, hrole⟩ := hold
  cases h with
  | added hop hinactive hin hout =>
    exact absurd (hout u fun hu => hinactive u hu ⟨n, hn, hactive⟩) hsame
  | left hop hm hlast hin hout =>
    obtain rfl : u = actor := by_contra fun hu => hsame (hout u hu)
    cases hm.symm.trans hn
    exact ⟨rfl, .inr ⟨hop, hlast hrole, fun v => nobody_remains (hlast hrole) hin hout⟩⟩
  | @removed target a m hop hne ha hm hmactive howner hrank hin hout =>
    obtain rfl : u = target := by_contra fun hu => hsame (hout u hu)
    cases hm.symm.trans hn
    exact absurd hrole howner
  | @transferred target a m hop hne ha howner hm hmactive hnewactor hin hout =>
    by_cases hu : u = actor
    · exact ⟨hu, .inl ⟨target, hop⟩⟩
    obtain rfl : u = target := by_contra fun hu' => hsame (hout u hu hu')
    exact absurd ⟨_, hin, hmactive, rfl⟩ hnew
  | @roleChanged target role m hop hnotowner howner hm hmowner hin hout =>
    obtain rfl : u = target := by_contra fun hu => hsame (hout u hu)
    cases hm.symm.trans hn
    exact absurd hrole hmowner
  | renamed hop hout => exact absurd (hout u) hsame

/-- A role changes at the owner's hands, or when its holder comes back as a member. -/
theorem Change.changes_role (hactor : Active old actor)
    {m m' : GroupMember} (hold : old u = some m) (hnew : new u = some m')
    (hrole : m'.role ≠ m.role) :
    ActiveOwner old actor ∨ ∃ added, op = .addMembers added ∧ u ∈ added.map (·.userId) ∧
      m.membership ≠ .active ∧ m'.membership = .active ∧ m'.role = .member := by
  have hsame : new u ≠ old u := by
    intro heq
    rw [hold, hnew] at heq
    cases heq
    exact hrole rfl
  cases h with
  | @added added hop hinactive hin hout =>
    have hu := by_contra fun hu => hsame (hout u hu)
    obtain ⟨n, hn, hactive, hmember⟩ := hin u hu
    cases hn.symm.trans hnew
    exact .inr ⟨added, hop, hu, fun hm => hinactive u hu ⟨m, hold, hm⟩, hactive, hmember⟩
  | left hop hm hlast hin hout =>
    obtain rfl : u = actor := by_contra fun hu => hsame (hout u hu)
    cases hm.symm.trans hold
    cases hin.symm.trans hnew
    exact absurd rfl hrole
  | @removed target a n hop hne ha hm hmactive howner hrank hin hout =>
    obtain rfl : u = target := by_contra fun hu => hsame (hout u hu)
    cases hm.symm.trans hold
    cases hin.symm.trans hnew
    exact absurd rfl hrole
  | @transferred target a n hop hne ha howner hm hmactive hnewactor hin hout =>
    obtain ⟨a', ha', hactive⟩ := hactor
    cases ha.symm.trans ha'
    exact .inl ⟨a, ha, hactive, howner⟩
  | roleChanged hop hnotowner howner hm hmowner hin hout => exact .inl howner
  | renamed hop hout => exact absurd (hout u) hsame

/-- An owner or admin goes by the owner's hand or of its own will. -/
theorem Change.goes (hactor : Active old actor)
    (hold : old u = some m) (hactive : m.membership = .active)
    (hrole : m.role ≠ .member) (hnew : ¬ Active new u) : u = actor ∨ ActiveOwner old actor := by
  have hsame : new u ≠ old u := fun heq => hnew ⟨m, heq.trans hold, hactive⟩
  cases h with
  | @added added hop hinactive hin hout =>
    have hu : u ∉ added.map (·.userId) := fun hu => hinactive u hu ⟨m, hold, hactive⟩
    exact absurd (hout u hu) hsame
  | left hop hm hlast hin hout => exact .inl (by_contra fun hu => hsame (hout u hu))
  | @removed target a n hop hne ha hm hmactive howner hrank hin hout =>
    obtain rfl : u = target := by_contra fun hu => hsame (hout u hu)
    cases hm.symm.trans hold
    obtain ⟨a', ha', hactive'⟩ := hactor
    cases ha.symm.trans ha'
    exact .inr ⟨a, ha, hactive', hrank.resolve_right hrole⟩
  | @transferred target a n hop hne ha howner hm hmactive hnewactor hin hout =>
    obtain ⟨a', ha', hactive'⟩ := hactor
    cases ha.symm.trans ha'
    exact .inr ⟨a, ha, hactive', howner⟩
  | roleChanged hop hnotowner howner hm hmowner hin hout => exact .inr howner
  | renamed hop hout => exact absurd (hout u) hsame

theorem Change.departed (hop : op = .removeMember actor)
    (hlast : ∀ v, Active old v → v = actor) : ¬ Active new u := by
  cases h with
  | left _ hm _ hin hout => exact nobody_remains hlast hin hout
  | removed hop' hne =>
    rw [hop] at hop'
    exact absurd (GroupControlOperation.removeMember.inj hop').symm hne
  | added hop' | transferred hop' | roleChanged hop' | renamed hop' => rw [hop] at hop'; cases hop'

theorem Change.owner_leaves (howner : ActiveOwner old actor)
    (hop : op = .removeMember actor) (hu : Active old u) : u = actor := by
  obtain ⟨n, hn, -, hrole⟩ := howner
  cases h with
  | left _ hm hlast hin hout =>
    cases hm.symm.trans hn
    exact hlast hrole u hu
  | removed hop' hne =>
    rw [hop] at hop'
    exact absurd (GroupControlOperation.removeMember.inj hop').symm hne
  | added hop' | transferred hop' | roleChanged hop' | renamed hop' => rw [hop] at hop'; cases hop'

end Changes

/-! ## Authority over histories -/

variable {s : GroupState}

theorem GroupState.unique_owner (h : s.lifecycle ≠ .left) :
    ∃ o, ∀ u, ActiveOwner s.roster u ↔ u = o := by
  have hchecked := s.checked
  simp only [GroupFields.check, Bool.and_eq_true, Bool.or_eq_true, beq_iff_eq] at hchecked
  exact (countP_isActiveOwner s.nodup).mp (hchecked.1.2.resolve_right h)

/-- After any history, an accepted event leaves one owner unless this device left the group, and
whatever it changes its signer had the authority to change. -/
theorem group_authority (l : UserId) (history : List SignedGroupControlEvent)
    (e : SignedGroupControlEvent) (s' : GroupState)
    (haccepted : (stateMachine l).apply ((stateMachine l).fold none history).2 e = .accepted s') :
    (s'.lifecycle ≠ .left → ∃! u, ActiveOwner s'.roster u) ∧
    ∀ s, ((stateMachine l).fold none history).2 = some s →
      Active s.roster e.event.signerUserId ∧
      (∀ u, ActiveOwner s'.roster u → ¬ ActiveOwner s.roster u →
        ActiveOwner s.roster e.event.signerUserId ∧ e.event.operation = .changeRole u .owner ∧
        ∃ m, s'.roster e.event.signerUserId = some m ∧ m.membership = .active ∧ m.role = .admin) ∧
      (∀ u, ActiveOwner s.roster u → ¬ ActiveOwner s'.roster u → u = e.event.signerUserId ∧
        ((∃ target, e.event.operation = .changeRole target .owner) ∨
          e.event.operation = .removeMember u)) ∧
      (∀ u m m', s.roster u = some m → s'.roster u = some m' → m'.role ≠ m.role →
        ActiveOwner s.roster e.event.signerUserId ∨
        ∃ added, e.event.operation = .addMembers added ∧ u ∈ added.map (·.userId) ∧
          m.membership ≠ .active ∧ m'.membership = .active ∧ m'.role = .member) ∧
      (∀ u m, s.roster u = some m → m.membership = .active → m.role ≠ .member →
        ¬ Active s'.roster u →
        u = e.event.signerUserId ∨ ActiveOwner s.roster e.event.signerUserId) ∧
      (ActiveOwner s.roster e.event.signerUserId →
        e.event.operation = .removeMember e.event.signerUserId →
        ∀ u, Active s.roster u → u = e.event.signerUserId) := by
  refine ⟨fun hleft => ?_, fun s hs => ?_⟩
  · obtain ⟨o, ho⟩ := GroupState.unique_owner hleft
    exact ⟨o, (ho o).mpr rfl, fun u hu => (ho u).mp hu⟩
  rw [hs] at haccepted
  obtain ⟨hnone, -⟩ | ⟨t, ht, -, hextend⟩ := ControlMachine.apply_accepted haccepted
  · cases hnone
  cases ht
  obtain ⟨hactor, hchange, -⟩ := extendGroup_eq_ok hextend
  refine ⟨hactor, fun u => hchange.becomes_owner hactor, fun u hold hnew => ?_,
    fun u m m' hold hnew =>
    hchange.changes_role hactor hold hnew, fun u m hold => hchange.goes hactor hold,
    fun howner hop u => hchange.owner_leaves howner hop⟩
  obtain ⟨hu, htransfer | ⟨hop, -, -⟩⟩ := hchange.loses_owner hold hnew
  · exact ⟨hu, .inl htransfer⟩
  · exact ⟨hu, .inr hop⟩

def user (b : UInt8) : UserId := .fill 16 b

def roleMember (b : UInt8) (role : GroupRole) : GroupMember := ⟨user b, "", role, .active, false⟩

def opening (members : List GroupMember) : SignedGroupControlEvent where
  event := {
    eventId := .fill 16 1, groupId := .fill 32 9, revision := 1, previousControlStateHash := none
    signerUserId := user 1, signerDeviceId := .fill 16 1, createdMs := 0
    operation := .create ⟨"group", ""⟩ .ownerOnly .newMessagesOnly members
    revision_pos := by decide, revision_le := by decide, first_iff := by decide
    create_iff := by simp [GroupControlOperation.isCreate] }
  controlStateHash := .fill 32 1
  canonicalBytes := [0]
  signature := .fill 64 0
  canonicalBytes_pos := by decide
  canonicalBytes_le := by decide

def second (op : GroupControlOperation) (hop : op.isCreate = false) : SignedGroupControlEvent where
  event := {
    eventId := .fill 16 2, groupId := .fill 32 9, revision := 2
    previousControlStateHash := some (.fill 32 1)
    signerUserId := user 1, signerDeviceId := .fill 16 1, createdMs := 0
    operation := op
    revision_pos := by decide, revision_le := by decide, first_iff := by decide
    create_iff := by simp [hop] }
  controlStateHash := .fill 32 2
  canonicalBytes := [0]
  signature := .fill 64 0
  canonicalBytes_pos := by decide
  canonicalBytes_le := by decide

def handedOver : GroupState where
  groupId := .fill 32 9
  metadata := ⟨"group", ""⟩
  invitationPolicy := .ownerOnly
  historySharingPolicy := .newMessagesOnly
  members := [roleMember 1 .admin, roleMember 2 .owner]
  controlRevision := 2
  controlStateHash := .fill 32 2
  lifecycle := .active
  quarantineReason := none
  checked := by decide

theorem group_authority_transfer : (∃! u, ActiveOwner handedOver.roster u) :=
  (group_authority (user 1) [opening [roleMember 1 .owner, roleMember 2 .member]]
    (second (.changeRole (user 2) .owner) rfl) handedOver (by decide)).1 (by decide)

/-! ## Two devices -/

theorem Change.governed {actor : UserId} {op : GroupControlOperation} {old new : Roster}
    (h : Change actor op old new) (hactor : Active old actor) (hold : Governed old) :
    (∃ o, ∀ u, ActiveOwner new u ↔ u = o) ∨ op = .removeMember actor ∧ ActiveOwner old actor ∧
      (∀ u, Active old u → u = actor) ∧ ∀ u, ¬ Active new u := by
  obtain ⟨o, ho⟩ | hnone := hold
  swap
  · exact absurd hactor (hnone actor)
  by_cases hkeeps : ActiveOwner new o
  · refine .inl ⟨o, fun u => ⟨fun hu => ?_, fun hu => hu ▸ hkeeps⟩⟩
    by_contra hne
    -- a second owner would have been made one by the first, who would be an admin now
    obtain ⟨howner, -, m, hm, -, hadmin⟩ := h.becomes_owner hactor hu fun hu => hne ((ho u).mp hu)
    obtain rfl := (ho actor).mp howner
    obtain ⟨m', hm', -, hrole⟩ := hkeeps
    cases hm.symm.trans hm'
    rw [hadmin] at hrole
    cases hrole
  · have howner : ActiveOwner old o := (ho o).mpr rfl
    obtain ⟨rfl, ⟨target, hop⟩ | ⟨hop, hlast, hnone⟩⟩ := h.loses_owner howner hkeeps
    · refine .inl ⟨target, fun u => ?_⟩
      cases h with
      | @transferred target' a m hop' hne ha hrole hm hactive hnewactor hin hout =>
        rw [hop] at hop'
        obtain ⟨rfl, -⟩ := GroupControlOperation.changeRole.inj hop'
        refine ⟨fun hu => ?_, fun hu => hu ▸ ⟨_, hin, hactive, rfl⟩⟩
        by_contra hu'
        by_cases hactor' : u = o
        · exact hkeeps (hactor' ▸ hu)
        · exact hactor' ((ho u).mp ((activeOwner_congr (hout u hactor' hu')).mp hu))
      | roleChanged hop' hrole =>
        rw [hop] at hop'
        exact absurd (GroupControlOperation.changeRole.inj hop').2.symm hrole
      | added hop' | left hop' | removed hop' | renamed hop' => rw [hop] at hop'; cases hop'
    · exact .inr ⟨hop, howner, hlast, hnone⟩

structure Held (l : UserId) (s : GroupState) : Prop where
  lifecycle : s.lifecycle = standing s.roster l
  governed : Governed s.roster

variable {l : UserId} {e : SignedGroupControlEvent}

theorem createGroup_held (h : createGroup l e = .ok s) : Held l s := by
  obtain ⟨-, howner, hlifecycle⟩ := createGroup_eq_ok h
  exact ⟨hlifecycle, .inl ⟨_, howner⟩⟩

theorem extendGroup_held {s s' : GroupState}
    (hs : Held l s) (h : extendGroup l s e = .ok s') : Held l s' := by
  obtain ⟨hactor, hchange, hlifecycle⟩ := extendGroup_eq_ok h
  constructor
  · rw [hlifecycle, hs.lifecycle, hchange.standing]
  · exact (hchange.governed hactor hs.governed).imp_right fun h => h.2.2.2

theorem fold_held (history : List SignedGroupControlEvent) :
    ∀ s, ((stateMachine l).fold none history).2 = some s → Held l s :=
  ControlMachine.fold_invariant createGroup_held (fun hs _ h => extendGroup_held hs h) history nofun

/-- The states of two devices, where only the lifecycle may differ. -/
def SameRoster (s t : GroupState) : Prop :=
  s.toGroupFields = { t.toGroupFields with lifecycle := s.lifecycle }

section Make

variable {f : GroupFields} {c : GroupLifecycle}

theorem standing_isQuarantined (r : Roster) (l : UserId) : (standing r l).isQuarantined = false := by
  unfold standing
  cases r l with
  | none => rfl
  | some m =>
    cases hm : m.membership <;> simp [hm, GroupMembershipState.lifecycle,
      GroupLifecycle.isQuarantined]

/-- What the constructor asks for apart from the owner. -/
def GroupFields.sound (f : GroupFields) : Bool :=
  f.controlRevision ≥ 1 && f.metadata.isValid && f.members.length ≤ maximumMembers &&
    decide (f.members.map (·.userId)).Nodup

theorem check_eq (hreason : f.quarantineReason = none) (hc : f.lifecycle.isQuarantined = false) :
    f.check = (f.sound && (f.members.countP (·.isActiveOwner) == 1 || f.lifecycle == .left)) := by
  unfold GroupFields.check
  rw [hreason, hc, GroupFields.sound]
  simp

theorem make_local (hreason : f.quarantineReason = none) (hf : f.lifecycle.isQuarantined = false)
    (hc : c.isQuarantined = false)
    (hsame : f.members.countP (·.isActiveOwner) = 1 ∨ (f.lifecycle = .left ↔ c = .left)) :
    Option.Rel SameRoster (GroupState.make f) (GroupState.make { f with lifecycle := c }) := by
  have hcount : (sortedMembers f.members).countP (·.isActiveOwner) =
      f.members.countP (·.isActiveOwner) := (sortedMembers_perm _).countP_eq _
  have hcheck : GroupFields.check { f with members := sortedMembers f.members } =
      GroupFields.check { f with members := sortedMembers f.members, lifecycle := c } := by
    rw [check_eq (f := { f with members := sortedMembers f.members }) hreason hf,
      check_eq (f := { f with members := sortedMembers f.members, lifecycle := c }) hreason hc]
    rw [hcount]
    refine congrArg₂ _ rfl ?_
    obtain hone | hleft := hsame
    · simp [hone]
    · by_cases h : f.lifecycle = .left
      · simp [h, hleft.mp h]
      · rw [beq_eq_false_iff_ne.mpr h, beq_eq_false_iff_ne.mpr fun hc' => h (hleft.mpr hc')]
  unfold GroupState.make
  by_cases h : GroupFields.check { f with members := sortedMembers f.members } = true
  · rw [dif_pos h, dif_pos (hcheck ▸ h)]
    exact .some rfl
  · rw [dif_neg h, dif_neg fun h' => h (hcheck.trans h')]
    exact .none

theorem make_isSome_eq (f : GroupFields) : (GroupState.make f).isSome = f.check := by
  have hperm := sortedMembers_perm f.members
  have hsorted : GroupFields.check { f with members := sortedMembers f.members } = f.check := by
    simp only [GroupFields.check, hperm.length_eq, (hperm.map _).nodup_iff, hperm.countP_eq]
  unfold GroupState.make
  rw [← hsorted]
  split
  · next h => rw [h]; rfl
  · next h => rw [Bool.not_eq_true] at h; rw [h]; rfl

theorem make_isSome (hsound : f.sound = true) (hreason : f.quarantineReason = none)
    (hf : f.lifecycle.isQuarantined = false) (hcount : f.members.countP (·.isActiveOwner) ≠ 1) :
    (GroupState.make f).isSome = (f.lifecycle == .left) := by
  rw [make_isSome_eq, check_eq hreason hf, hsound, beq_eq_false_iff_ne.mpr hcount]
  simp

end Make

/-- The user is out of the group by its own will once `e` is applied. -/
def HasLeft (l : UserId) (s : GroupState) (e : SignedGroupControlEvent) : Prop :=
  l = e.event.signerUserId ∨ ∃ m, s.roster l = some m ∧ m.membership = .left

/-- The last member, the owner, leaves, and one of the two users has left the group then while the
other is merely not in it. -/
structure Splits (l l' : UserId) (s : GroupState) (e : SignedGroupControlEvent) : Prop where
  departure : e.event.operation = .removeMember e.event.signerUserId
  owner : ActiveOwner s.roster e.event.signerUserId
  last : ∀ u, Active s.roster u → u = e.event.signerUserId
  differ : ¬ (HasLeft l s e ↔ HasLeft l' s e)

section Extend

variable {l l' : UserId} {s t : GroupState} {e : SignedGroupControlEvent}

theorem standing_eq_left {r : Roster} {u : UserId} :
    standing r u = .left ↔ ∃ m, r u = some m ∧ m.membership = .left := by
  unfold standing
  cases r u with
  | none => simp
  | some m => cases hm : m.membership <;> simp [hm, GroupMembershipState.lifecycle]

theorem hasLeft_iff (hop : e.event.operation = .removeMember e.event.signerUserId) :
    HasLeft l s e ↔ lifecycleAfter l e.event.signerUserId e.event.operation (standing s.roster l) =
      .left := by
  rw [HasLeft, hop, lifecycleAfter, ← standing_eq_left]
  by_cases hl : e.event.signerUserId = l
  · simp [hl]
  · rw [if_neg hl]
    exact or_iff_right (Ne.symm hl)

/-- The fields of the state that `extendGroup` tries to make. -/
def nextFields (s : GroupState) (e : SignedGroupControlEvent) (next : Mutable) : GroupFields :=
  { s.toGroupFields with
    metadata := next.metadata
    members := next.members
    controlRevision := e.event.revision
    controlStateHash := e.controlStateHash
    lifecycle := next.lifecycle
    quarantineReason := none }

theorem applyOperation_same (l' : UserId) (hsame : SameRoster s t) {next : Option Mutable}
    (h : applyOperation l s.toGroupFields e.event = next) :
    applyOperation l' t.toGroupFields e.event = next.map fun n => { n with
      lifecycle := lifecycleAfter l' e.event.signerUserId e.event.operation t.lifecycle } := by
  rw [applyOperation_local t.toGroupFields l' l s.lifecycle e.event, ← h, ← hsame]

theorem SameRoster.roster_eq (h : SameRoster s t) : s.roster = t.roster := by
  rw [GroupState.roster, h]

theorem nextFields_same (hsame : SameRoster s t) (next : Mutable) (c : GroupLifecycle) :
    nextFields t e { next with lifecycle := c } = { nextFields s e next with lifecycle := c } := by
  unfold nextFields
  rw [hsame]

variable {next : Mutable}

theorem extendGroup_of_next (h : applyOperation l s.toGroupFields e.event = some next) :
    extendGroup l s e = okOr (GroupState.make (nextFields s e next)) .invalidMembership := by
  unfold extendGroup
  rw [h]
  rfl

theorem next_lifecycle (hs : Held l s) (h : applyOperation l s.toGroupFields e.event = some next) :
    next.lifecycle = lifecycleAfter l e.event.signerUserId e.event.operation s.lifecycle ∧
      next.lifecycle = standing (memberOf next.members) l := by
  have hlocal := applyOperation_local s.toGroupFields l l s.lifecycle e.event
  rw [h] at hlocal
  have hlifecycle := congrArg Mutable.lifecycle (Option.some.inj hlocal)
  obtain ⟨-, hchange, -⟩ := applyOperation_change s.nodup h
  refine ⟨hlifecycle, hlifecycle.trans ?_⟩
  rw [hs.lifecycle, ← hchange.standing]

theorem extendGroup_same (hs : Held l s) (ht : Held l' t) (hsame : SameRoster s t)
    (hsplit : ¬ Splits l l' s e) :
    ControlMachine.SameResult (fun s t => SameRoster s t ∧ Held l s ∧ Held l' t)
      (extendGroup l s e) (extendGroup l' t e) := by
  cases hnext : applyOperation l s.toGroupFields e.event with
  | none =>
    have hnext' := applyOperation_same l' hsame hnext
    unfold extendGroup
    rw [hnext, hnext']
    rfl
  | some next =>
    have hnext' := applyOperation_same l' hsame hnext
    obtain ⟨hafter, hstanding⟩ := next_lifecycle hs hnext
    obtain ⟨hafter', hstanding'⟩ := next_lifecycle ht hnext'
    obtain ⟨hactor, hchange, hnodup⟩ := applyOperation_change s.nodup hnext
    have howner : next.members.countP (·.isActiveOwner) = 1 ∨ (next.lifecycle = .left ↔
        lifecycleAfter l' e.event.signerUserId e.event.operation t.lifecycle = .left) := by
      obtain hone | ⟨hop, howner, hlast, -⟩ := hchange.governed hactor hs.governed
      · exact .inl ((countP_isActiveOwner hnodup).mpr hone)
      · refine .inr ?_
        rw [hafter, hs.lifecycle, ht.lifecycle, ← hsame.roster_eq, ← hasLeft_iff hop,
          ← hasLeft_iff hop]
        by_contra hdiffer
        exact hsplit ⟨hop, howner, hlast, hdiffer⟩
    have hmake := make_local (f := nextFields s e next) rfl
      (by rw [show (nextFields s e next).lifecycle = next.lifecycle from rfl, hstanding]
          exact standing_isQuarantined _ _)
      (by rw [show lifecycleAfter l' _ _ _ = standing _ l' from hstanding']
          exact standing_isQuarantined _ _) howner
    rw [← nextFields_same hsame] at hmake
    have hextend := extendGroup_of_next hnext
    have hextend' := extendGroup_of_next hnext'
    generalize hm : GroupState.make (nextFields s e next) = made at hmake hextend
    generalize hm' : GroupState.make (nextFields t e _) = made' at hmake hextend'
    cases hmake with
    | none =>
      rw [hextend, hextend']
      rfl
    | some hroster =>
      have hheld := extendGroup_held hs hextend
      have hheld' := extendGroup_held ht hextend'
      rw [hextend, hextend']
      exact ⟨hroster, hheld, hheld'⟩

theorem canLeave_last (howner : ActiveOwner s.roster e.event.signerUserId)
    (hlast : ∀ u, Active s.roster u → u = e.event.signerUserId) :
    GroupAuthorization.canLeave s.toGroupFields e.event.signerUserId true = true := by
  obtain ⟨m, hm, hactive, hrole⟩ := howner
  have hadmits : GroupAuthorization.admits true s.toGroupFields e.event.signerUserId .leave = true :=
    allowsControl_eq_true.mpr ⟨m, hm, hactive, by simp [GroupAuthorization.activeMemberPermissions]⟩
  have hone : s.activeMembers = [m] := by
    have hsub : (s.activeMembers.map (·.userId)).Nodup :=
      s.nodup.sublist (List.filter_sublist.map _)
    refine List.perm_singleton.mp ((List.perm_ext_iff_of_nodup hsub.of_map
      (List.nodup_singleton m)).mpr fun n => ?_)
    rw [List.mem_singleton, GroupFields.activeMembers, List.mem_filter]
    simp only [GroupMember.isActive, beq_iff_eq]
    constructor
    · rintro ⟨hin, hnactive⟩
      have hn : s.roster n.userId = some n := (memberOf_eq_some s.nodup).mpr ⟨hin, rfl⟩
      have hid := hlast n.userId ⟨n, hn, hnactive⟩
      rw [hid] at hn
      exact Option.some.inj (hn.symm.trans hm)
    · rintro rfl
      exact ⟨((memberOf_eq_some s.nodup).mp hm).1, hactive⟩
  unfold GroupAuthorization.canLeave
  rw [hadmits]
  exact any_member.mpr ⟨m, hm, by simp [hone]⟩

theorem extendGroup_last (hs : Held l s)
    (hop : e.event.operation = .removeMember e.event.signerUserId)
    (howner : ActiveOwner s.roster e.event.signerUserId)
    (hlast : ∀ u, Active s.roster u → u = e.event.signerUserId) :
    (extendGroup l s e).isOk = true ↔ HasLeft l s e := by
  have hcan := canLeave_last howner hlast
  have hnext : ∃ next, applyOperation l s.toGroupFields e.event = some next ∧
      next.metadata = s.metadata ∧
      next.members = replaceMember e.event.signerUserId (fun m => { m with membership := .left })
        s.members := by
    unfold applyOperation
    rw [hop]
    dsimp only
    rw [if_pos rfl, hcan]
    exact ⟨_, rfl, rfl, rfl⟩
  obtain ⟨next, hnext, hmetadata, hmembers⟩ := hnext
  obtain ⟨hafter, hstanding⟩ := next_lifecycle hs hnext
  obtain ⟨hactor, hchange, hnodup⟩ := applyOperation_change s.nodup hnext
  have hsound : (nextFields s e next).sound = true := by
    have hchecked := s.checked
    have hrevision := e.event.revision_pos
    simp only [GroupFields.check, Bool.and_eq_true, decide_eq_true_eq] at hchecked
    simp only [GroupFields.sound, nextFields, hmetadata, Bool.and_eq_true, decide_eq_true_eq]
    refine ⟨⟨⟨hrevision, hchecked.1.1.1.1.2⟩, ?_⟩, hnodup⟩
    rw [hmembers, replaceMember, length_replaceKey]
    exact hchecked.1.1.1.2
  have hcount : (nextFields s e next).members.countP (·.isActiveOwner) ≠ 1 := by
    intro hone
    obtain ⟨o, ho⟩ := (countP_isActiveOwner hnodup).mp hone
    exact hchange.departed hop hlast ((ho o).mpr rfl).active
  have hsome := make_isSome hsound rfl
    (by rw [show (nextFields s e next).lifecycle = next.lifecycle from rfl, hstanding]
        exact standing_isQuarantined _ _) hcount
  rw [extendGroup_of_next hnext, hasLeft_iff hop, ← hs.lifecycle, ← hafter]
  rw [show (nextFields s e next).lifecycle = next.lifecycle from rfl] at hsome
  cases hm : GroupState.make (nextFields s e next) <;> rw [hm] at hsome <;>
    simpa [okOr, Except.isOk, Except.toBool] using hsome.symm

end Extend

/-- A first event is refused by everyone, or everyone makes a roster with one owner of it. -/
theorem createGroup_cases (e : SignedGroupControlEvent) :
    (∃ reason, ∀ l, createGroup l e = .error reason) ∨
      ∃ (f : GroupFields) (c : UserId → GroupLifecycle),
        f.members.countP (·.isActiveOwner) = 1 ∧ f.quarantineReason = none ∧
        (∀ l, (c l).isQuarantined = false) ∧
        ∀ l, createGroup l e =
          okOr (GroupState.make { f with lifecycle := c l }) .invalidMembership := by
  unfold createGroup
  split
  · next metadata invitationPolicy historySharingPolicy members hop =>
    by_cases hvalid : (!metadata.isValid || members.isEmpty || members.length > maximumMembers ||
        members.any (!·.isActive)) = true
    · exact .inl ⟨_, fun l => if_pos hvalid⟩
    by_cases howners :
        (members.filter (·.role = .owner)).map (·.userId) ≠ [e.event.signerUserId]
    · exact .inl ⟨_, fun l => by rw [if_neg hvalid, if_pos howners]⟩
    refine .inr ⟨⟨_, _, _, _, _, _, _, .active, none⟩,
      fun l => if members.any (·.userId = l) then .active else .removed, ?_, rfl, ?_,
      fun l => by rw [if_neg hvalid, if_neg howners]⟩
    · have hactive : ∀ m ∈ members, m.isActive = true := by
        simp only [Bool.or_eq_true, not_or, Bool.not_eq_true, List.any_eq_false,
          Bool.not_eq_false'] at hvalid
        exact hvalid.2
      have hsame : members.filter (·.isActiveOwner) = members.filter (·.role = .owner) :=
        List.filter_congr fun m hm => by
          rw [GroupMember.isActiveOwner, hactive m hm]
          rfl
      have hlength := congrArg List.length (not_not.mp howners)
      rw [List.length_map, List.length_singleton] at hlength
      rw [List.countP_eq_length_filter, hsame, hlength]
    · intro l
      dsimp only
      split <;> rfl
  · exact .inl ⟨_, fun l => rfl⟩

theorem createGroup_same (l l' : UserId) (e : SignedGroupControlEvent) :
    ControlMachine.SameResult (fun s t => SameRoster s t ∧ Held l s ∧ Held l' t)
      (createGroup l e) (createGroup l' e) := by
  obtain ⟨reason, hrefused⟩ | ⟨f, c, hone, hreason, hc, hmade⟩ := createGroup_cases e
  · rw [hrefused, hrefused]
    rfl
  have hmake := make_local (f := { f with lifecycle := c l }) hreason (hc l) (hc l') (.inl hone)
  have hcreate := hmade l
  have hcreate' := hmade l'
  generalize GroupState.make { f with lifecycle := c l } = made at hmake hcreate
  generalize GroupState.make { f with lifecycle := c l' } = made' at hmake hcreate'
  cases hmake with
  | none =>
    rw [hcreate, hcreate']
    rfl
  | some hroster =>
    have hheld := createGroup_held hcreate
    have hheld' := createGroup_held hcreate'
    rw [hcreate, hcreate']
    exact ⟨hroster, hheld, hheld'⟩

/-- Two devices in step, as long as nothing splits them. -/
theorem devices_lockstep (l l' : UserId) :
    ControlMachine.Lockstep (stateMachine l) (stateMachine l')
      (fun s t => SameRoster s t ∧ Held l s ∧ Held l' t) (Splits l l') where
  link := rfl
  brokenChain := rfl
  siblingControl := rfl
  head := by
    rintro s t ⟨hsame, -, -⟩
    show s.head = t.head
    unfold GroupState.head
    rw [hsame]
  create := createGroup_same l l'
  extend := fun ⟨hsame, hs, ht⟩ _ hsplit => extendGroup_same hs ht hsame hsplit
  split := by
    rintro s t e ⟨hsame, hs, ht⟩ - ⟨hop, howner, hlast, hdiffer⟩
    have hroster := hsame.roster_eq
    have hok := extendGroup_last hs hop howner hlast
    have hok' := extendGroup_last ht hop (hroster ▸ howner) (hroster ▸ hlast)
    have hleft : HasLeft l' t e ↔ HasLeft l' s e := by rw [HasLeft, HasLeft, hroster]
    intro heq
    change (extendGroup l s e).isOk = (extendGroup l' t e).isOk at heq
    rw [heq, hok', hleft] at hok
    exact hdiffer hok.symm

theorem Held.active_iff (h : Held l s) : s.lifecycle = .active ↔ Active s.roster l := by
  rw [h.lifecycle, standing, Active]
  cases s.roster l with
  | none => simp
  | some m => cases hm : m.membership <;> simp [hm, GroupMembershipState.lifecycle]

/-- Two devices that fold the same events give the same verdicts and hold the same roster exactly
as long as no owner leaves as the last member while one of their users has left the group and the
other is not in it for another reason. -/
theorem rosters_agree_iff (l l' : UserId) (events : List SignedGroupControlEvent) :
    (((stateMachine l).fold none events).1 = ((stateMachine l').fold none events).1 ∧
      Option.Rel SameRoster ((stateMachine l).fold none events).2
        ((stateMachine l').fold none events).2 ∧
      (∀ s, ((stateMachine l).fold none events).2 = some s →
        (s.lifecycle = .active ↔ Active s.roster l)) ∧
      ∀ s, ((stateMachine l').fold none events).2 = some s →
        (s.lifecycle = .active ↔ Active s.roster l')) ↔
      (stateMachine l).NoSplit (Splits l l') none events := by
  rw [← (devices_lockstep l l').agree_iff events .none]
  have hheld := fold_held (l := l) events
  have hheld' := fold_held (l := l') events
  constructor
  · rintro ⟨hverdicts, hlast, -, -⟩
    refine ⟨hverdicts, ?_⟩
    generalize ((stateMachine l).fold none events).2 = p at hlast hheld
    generalize ((stateMachine l').fold none events).2 = q at hlast hheld'
    cases hlast with
    | none => exact .none
    | some hsame => exact .some ⟨hsame, hheld _ rfl, hheld' _ rfl⟩
  · rintro ⟨hverdicts, hlast⟩
    refine ⟨hverdicts, ?_, fun s hs => (hheld s hs).active_iff, fun s hs => (hheld' s hs).active_iff⟩
    exact ControlMachine.rel_mono (fun h => h.1) hlast

def transferEvents : List SignedGroupControlEvent :=
  [opening [roleMember 1 .owner, roleMember 2 .member], second (.changeRole (user 2) .owner) rfl]

/-- Handing a group over splits nobody. -/
theorem rosters_agree_transfer : ((stateMachine (user 1)).fold none transferEvents).1 =
      ((stateMachine (user 3)).fold none transferEvents).1 :=
  ((rosters_agree_iff (user 1) (user 3) transferEvents).mpr
    ⟨nofun, fun s _ _ hsplit => (by cases hsplit.departure), trivial⟩).1

/-- The owner of a group of one leaves it: its own device takes the event, the device of a user
who is not in the group refuses it. -/
theorem last_departure_splits : ((stateMachine (user 1)).fold none [opening [roleMember 1 .owner],
        second (.removeMember (user 1)) rfl]).1 = [.accepted, .accepted] ∧
      ((stateMachine (user 2)).fold none [opening [roleMember 1 .owner],
        second (.removeMember (user 1)) rfl]).1 = [.accepted, .quarantined .invalidMembership] := by
  decide

end CommPlatform.Groups
