import CommPlatform.L5Groups.GroupModel

/-!
# What a control event does to a roster

A roster says of every account whether and as what it is in the group.
`Change` lists what an accepted operation can make of a roster and what its
signer must have been allowed to do, one case for each operation; `applyOperation_change`
shows that the state machine does nothing else. Who holds the roster shows
in the lifecycle alone (`applyOperation_local`), and the lifecycle follows
the roster (`Change.standing`).
-/
namespace CommPlatform.Groups

open CommPlatform.Core
open List (foldl_cons map_cons mem_cons mem_filter mem_map mem_singleton)

/-! ## Members by id -/

def memberOf (members : List GroupMember) (userId : UserId) : Option GroupMember :=
  lookup (·.userId) members userId

section MemberOf

variable {members : List GroupMember} {m : GroupMember} {u v : UserId}

theorem memberOf_append_singleton :
    memberOf (members ++ [m]) v = (memberOf members v).or (if m.userId = v then some m else none) :=
  lookup_append_singleton

theorem memberOf_eq_some (hnodup : (members.map (·.userId)).Nodup) :
    memberOf members u = some m ↔ m ∈ members ∧ m.userId = u := lookup_eq_some hnodup

theorem memberOf_sortedMembers (hnodup : (members.map (·.userId)).Nodup) :
    memberOf (sortedMembers members) u = memberOf members u :=
  lookup_perm (sortedMembers_perm members) hnodup

variable {replace : GroupMember → GroupMember}

theorem memberOf_replaceMember (hid : ∀ m, m.userId = u → (replace m).userId = u) :
    memberOf (replaceMember u replace members) v =
      if v = u then (memberOf members u).map replace else memberOf members v :=
  lookup_replaceKey hid

theorem map_userId_replaceMember (hid : ∀ m, m.userId = u → (replace m).userId = u) :
    (replaceMember u replace members).map (·.userId) = members.map (·.userId) :=
  map_key_replaceKey hid

end MemberOf

abbrev Roster := UserId → Option GroupMember

def Active (r : Roster) (u : UserId) : Prop := ∃ m, r u = some m ∧ m.membership = .active

def ActiveOwner (r : Roster) (u : UserId) : Prop :=
  ∃ m, r u = some m ∧ m.membership = .active ∧ m.role = .owner

/-! ## Permissions -/

section Permissions

open GroupAuthorization

variable {permission : GroupPermission} {f : GroupFields} {actor : UserId}

theorem member_eq : f.member actor = memberOf f.members actor := rfl

theorem allowsControl_eq_true : allowsControl f actor permission = true ↔
      ∃ m, memberOf f.members actor = some m ∧ m.membership = .active ∧
        permission ∈ activeMemberPermissions f m := by
  rw [allowsControl, member_eq]
  cases memberOf f.members actor <;> simp [GroupMember.isActive]

variable {target : UserId}

theorem mem_ownerOnly {m : GroupMember}
    (h : permission = .changeRoles ∨ permission = .transferOwnership) :
    permission ∈ activeMemberPermissions f m ↔ m.role = .owner := by
  unfold activeMemberPermissions
  rcases h with rfl | rfl <;> split <;> split <;> split <;> simp_all

variable {p : GroupMember → Bool}

theorem any_member :
    (f.member target).any p = true ↔ ∃ m, memberOf f.members target = some m ∧ p m = true := by
  rw [member_eq]
  cases memberOf f.members target <;> simp

theorem canAdd_eq_true {targets : List UserId} (h : canAdd f actor targets true = true) :
    targets.Nodup ∧ Active (memberOf f.members) actor ∧
      ∀ u ∈ targets, ¬ Active (memberOf f.members) u := by
  unfold canAdd at h
  split at h
  · cases h
  next hmay =>
  simp only [Bool.or_eq_true, not_or, Bool.not_eq_true, Bool.not_eq_false', decide_eq_true_eq] at hmay
  obtain ⟨⟨⟨-, hnodup⟩, hadmits⟩, -⟩ := hmay
  obtain ⟨m, hm, hactive, -⟩ := allowsControl_eq_true.mp hadmits
  refine ⟨hnodup, ⟨m, hm, hactive⟩, ?_⟩
  rintro u hu ⟨t, ht, htactive⟩
  have hall := List.all_eq_true.mp h u hu
  have hany := any_member.mpr ⟨t, ht, show t.isActive = true by simp [GroupMember.isActive, htactive]⟩
  rw [hany] at hall
  cases hall

theorem canLeave_eq_true (hnodup : (f.members.map (·.userId)).Nodup)
    (h : canLeave f actor true = true) :
    ∃ m, memberOf f.members actor = some m ∧ m.membership = .active ∧
      (m.role = .owner → ∀ u, Active (memberOf f.members) u → u = actor) := by
  unfold canLeave at h
  split at h
  · cases h
  next hmay =>
  rw [Bool.not_eq_true', Bool.not_eq_false] at hmay
  obtain ⟨m, hm, hactive, -⟩ := allowsControl_eq_true.mp hmay
  obtain ⟨m', hm', hlast⟩ := any_member.mp h
  cases hm.symm.trans hm'
  refine ⟨m, hm, hactive, fun hrole u hu => ?_⟩
  have hone : f.activeMembers.length = 1 := by simpa [hrole] using hlast
  obtain ⟨only, honly⟩ := List.length_eq_one_iff.mp hone
  have hmem : ∀ {v t}, memberOf f.members v = some t → t.membership = .active → t = only := by
    intro v t ht htactive
    have hin : t ∈ f.activeMembers := mem_filter.mpr
      ⟨((memberOf_eq_some hnodup).mp ht).1, by simp [GroupMember.isActive, htactive]⟩
    rw [honly] at hin
    exact mem_singleton.mp hin
  obtain ⟨t, ht, htactive⟩ := hu
  have hsame := (hmem ht htactive).trans (hmem hm hactive).symm
  rw [← ((memberOf_eq_some hnodup).mp ht).2, hsame, ((memberOf_eq_some hnodup).mp hm).2]

theorem canRemove_eq_true (h : canRemove f actor target true = true) :
    target ≠ actor ∧ ∃ a m, memberOf f.members actor = some a ∧ a.membership = .active ∧
      memberOf f.members target = some m ∧ m.membership = .active ∧ m.role ≠ .owner ∧
      (a.role = .owner ∨ m.role = .member) := by
  unfold canRemove at h
  split at h
  · cases h
  next hmay =>
  simp only [Bool.or_eq_true, not_or, decide_eq_true_eq, Bool.not_eq_true, Bool.not_eq_false'] at hmay
  obtain ⟨a, ha, hactive, -⟩ := allowsControl_eq_true.mp hmay.2
  rw [member_eq, member_eq, ha] at h
  cases hm : memberOf f.members target with
  | none => rw [hm] at h; cases h
  | some m =>
    rw [hm] at h
    dsimp only at h
    split at h
    · cases h
    next hlive =>
    simp only [Bool.or_eq_true, not_or, Bool.not_eq_true, Bool.not_eq_false', GroupMember.isActive,
      beq_iff_eq] at hlive
    exact ⟨Ne.symm hmay.1, a, m, ha, hactive, rfl, hlive.1, hlive.2, by simpa using h⟩

/-- What the two checks of a change of roles have in common. -/
theorem ownerActs (hpermission : permission = .changeRoles ∨ permission = .transferOwnership)
    (hadmits : admits true f actor permission = true)
    (h : ((f.member target).any fun t => t.isActive && t.role != .owner && p t) = true) :
    ∃ a m, memberOf f.members actor = some a ∧ a.membership = .active ∧ a.role = .owner ∧
      memberOf f.members target = some m ∧ m.membership = .active ∧ m.role ≠ .owner := by
  obtain ⟨a, ha, hactive, howner⟩ := allowsControl_eq_true.mp hadmits
  obtain ⟨m, hm, hlive⟩ := any_member.mp h
  simp only [Bool.and_eq_true, GroupMember.isActive, beq_iff_eq, bne_iff_ne] at hlive
  exact ⟨a, m, ha, hactive, (mem_ownerOnly hpermission).mp howner, hm, hlive.1.1, hlive.1.2⟩

theorem canTransferOwnership_eq_true (h : canTransferOwnership f actor target true = true) :
    target ≠ actor ∧ ∃ a m, memberOf f.members actor = some a ∧ a.membership = .active ∧
      a.role = .owner ∧ memberOf f.members target = some m ∧ m.membership = .active ∧
      m.role ≠ .owner := by
  unfold canTransferOwnership at h
  split at h
  · cases h
  next hmay =>
  simp only [Bool.or_eq_true, not_or, decide_eq_true_eq, Bool.not_eq_true, Bool.not_eq_false'] at hmay
  refine ⟨Ne.symm hmay.1, ownerActs (.inr rfl) hmay.2 (p := fun _ => true) ?_⟩
  simpa using h

theorem canChangeRole_eq_true {role : GroupRole}
    (h : canChangeRole f actor target role true = true) :
    role ≠ .owner ∧ ∃ a m, memberOf f.members actor = some a ∧ a.membership = .active ∧
      a.role = .owner ∧ memberOf f.members target = some m ∧ m.membership = .active ∧
      m.role ≠ .owner := by
  unfold canChangeRole at h
  split at h
  · cases h
  next hmay =>
  simp only [Bool.or_eq_true, not_or, decide_eq_true_eq, Bool.not_eq_true, Bool.not_eq_false'] at hmay
  exact ⟨hmay.1.1, ownerActs (.inl rfl) hmay.2 h⟩

end Permissions

/-! ## The loop over added members -/

section AddMembers

variable {f : GroupFields} {members : List GroupMember} {member : GroupMember}

theorem memberOf_addToRoster_of_ne {u : UserId} (hne : u ≠ member.userId) :
    memberOf (addToRoster f members member) u = memberOf members u := by
  unfold addToRoster
  split
  · rw [memberOf_replaceMember (fun _ _ => by rfl), if_neg hne]
  · rw [memberOf_append_singleton, if_neg (Ne.symm hne), Option.or_none]

variable (hsame : memberOf members member.userId = memberOf f.members member.userId)
include hsame

theorem memberOf_addToRoster : ∃ m, memberOf (addToRoster f members member) member.userId = some m ∧
      m.membership = member.membership ∧ m.role = member.role := by
  unfold addToRoster
  split
  · next hsome =>
    obtain ⟨m, hm⟩ := Option.isSome_iff_exists.mp hsome
    rw [memberOf_replaceMember (fun _ _ => by rfl), if_pos rfl, hsame.trans hm]
    exact ⟨_, rfl, rfl, rfl⟩
  · next hnone =>
    have hnone := hsame.trans (Option.not_isSome_iff_eq_none.mp hnone)
    rw [memberOf_append_singleton, hnone, if_pos rfl]
    exact ⟨_, rfl, rfl, rfl⟩

theorem nodup_addToRoster (hnodup : (members.map (·.userId)).Nodup) :
    ((addToRoster f members member).map (·.userId)).Nodup := by
  unfold addToRoster
  split
  · rwa [map_userId_replaceMember (fun _ _ => by rfl)]
  · next hnone =>
    rw [List.map_append, List.nodup_append]
    refine ⟨hnodup, List.nodup_singleton _, ?_⟩
    rintro a ha b hb rfl
    obtain ⟨m, hm, hid⟩ := mem_map.mp ha
    obtain rfl := mem_singleton.mp hb
    have hfound := (memberOf_eq_some hnodup).mpr ⟨hm, hid⟩
    rw [show f.member member.userId = some m from hsame.symm.trans hfound] at hnone
    exact hnone rfl

omit hsame

variable {added : List GroupMember}

theorem memberOf_foldl_addToRoster (hadded : (added.map (·.userId)).Nodup)
    (hsame : ∀ m ∈ added, memberOf members m.userId = memberOf f.members m.userId) :
    (∀ m ∈ added, ∃ m', memberOf (added.foldl (addToRoster f) members) m.userId = some m' ∧
      m'.membership = m.membership ∧ m'.role = m.role) ∧
    ∀ u ∉ added.map (·.userId),
      memberOf (added.foldl (addToRoster f) members) u = memberOf members u := by
  induction added generalizing members with
  | nil => exact ⟨nofun, fun _ _ => rfl⟩
  | cons a added ih =>
    rw [map_cons, List.nodup_cons] at hadded
    have hrest : ∀ m ∈ added, memberOf (addToRoster f members a) m.userId =
        memberOf f.members m.userId := by
      intro m hm
      have hne : m.userId ≠ a.userId := fun heq => hadded.1 (heq ▸ List.mem_map_of_mem hm)
      rw [memberOf_addToRoster_of_ne hne, hsame m (List.mem_cons_of_mem _ hm)]
    obtain ⟨hin, hout⟩ := ih hadded.2 hrest
    refine ⟨?_, ?_⟩
    · intro m hm
      obtain rfl | hm := mem_cons.mp hm
      · rw [foldl_cons, hout _ hadded.1]
        exact memberOf_addToRoster (hsame _ List.mem_cons_self)
      · exact hin m hm
    · intro u hu
      rw [map_cons, mem_cons, not_or] at hu
      rw [foldl_cons, hout u hu.2, memberOf_addToRoster_of_ne hu.1]

theorem nodup_foldl_addToRoster (hadded : (added.map (·.userId)).Nodup)
    (hsame : ∀ m ∈ added, memberOf members m.userId = memberOf f.members m.userId)
    (hnodup : (members.map (·.userId)).Nodup) :
    ((added.foldl (addToRoster f) members).map (·.userId)).Nodup := by
  induction added generalizing members with
  | nil => exact hnodup
  | cons a added ih =>
    rw [map_cons, List.nodup_cons] at hadded
    refine ih hadded.2 (fun m hm => ?_) (nodup_addToRoster (hsame _ List.mem_cons_self) hnodup)
    have hne : m.userId ≠ a.userId := fun heq => hadded.1 (heq ▸ List.mem_map_of_mem hm)
    rw [memberOf_addToRoster_of_ne hne, hsame m (List.mem_cons_of_mem _ hm)]

/-- Only the lifecycle depends on who runs the loop. -/
theorem foldl_addMember (l : UserId) (mutable : Mutable) :
    added.foldl (addMember f l) mutable =
      ⟨mutable.metadata, added.foldl (addToRoster f) mutable.members,
        if l ∈ added.map (·.userId) then .active else mutable.lifecycle⟩ := by
  induction added generalizing mutable with
  | nil => rfl
  | cons a added ih =>
    rw [foldl_cons, ih, map_cons]
    congr 1
    by_cases ha : a.userId = l
    · simp [addMember, ha]
    · simp [addMember, ha, Ne.symm ha]

end AddMembers

/-! ## What an operation does -/

/-- What an accepted operation of `actor` makes of a roster, and what it takes. -/
inductive Change (actor : UserId) (op : GroupControlOperation) (old new : Roster) : Prop
  | added {added : List GroupMember} (hop : op = .addMembers added)
      (hinactive : ∀ u ∈ added.map (·.userId), ¬ Active old u)
      (hin : ∀ u ∈ added.map (·.userId),
        ∃ m, new u = some m ∧ m.membership = .active ∧ m.role = .member)
      (hout : ∀ u ∉ added.map (·.userId), new u = old u)
  | left {m : GroupMember} (hop : op = .removeMember actor) (hm : old actor = some m)
      (hlast : m.role = .owner → ∀ u, Active old u → u = actor)
      (hin : new actor = some { m with membership := .left })
      (hout : ∀ u, u ≠ actor → new u = old u)
  | removed {target : UserId} {a m : GroupMember} (hop : op = .removeMember target)
      (hne : target ≠ actor) (ha : old actor = some a) (hm : old target = some m)
      (hactive : m.membership = .active) (howner : m.role ≠ .owner)
      (hrank : a.role = .owner ∨ m.role = .member)
      (hin : new target = some { m with membership := .removed })
      (hout : ∀ u, u ≠ target → new u = old u)
  | transferred {target : UserId} {a m : GroupMember} (hop : op = .changeRole target .owner)
      (hne : target ≠ actor) (ha : old actor = some a) (howner : a.role = .owner)
      (hm : old target = some m) (hactive : m.membership = .active)
      (hactor : new actor = some { a with role := .admin })
      (hin : new target = some { m with role := .owner })
      (hout : ∀ u, u ≠ actor → u ≠ target → new u = old u)
  | roleChanged {target : UserId} {role : GroupRole} {m : GroupMember}
      (hop : op = .changeRole target role) (hrole : role ≠ .owner) (hactor : ActiveOwner old actor)
      (hm : old target = some m) (howner : m.role ≠ .owner)
      (hin : new target = some { m with role })
      (hout : ∀ u, u ≠ target → new u = old u)
  | renamed {metadata : GroupMetadata} (hop : op = .rename metadata)
      (hout : ∀ u, new u = old u)

/-- The lifecycle after an operation, by what it does to the local user. -/
def lifecycleAfter (l actor : UserId) (op : GroupControlOperation) (before : GroupLifecycle) :
    GroupLifecycle :=
  match op with
  | .addMembers added => if l ∈ added.map (·.userId) then .active else before
  | .removeMember target =>
    if target = l then if target = actor then .left else .removed else before
  | _ => before

def GroupMembershipState.lifecycle : GroupMembershipState → GroupLifecycle
  | .active => .active
  | .removed => .removed
  | .left => .left

/-- Where a user stands by the roster. -/
def standing (r : Roster) (l : UserId) : GroupLifecycle :=
  ((r l).map (·.membership.lifecycle)).getD .removed

theorem Change.standing {actor l : UserId} {op : GroupControlOperation} {old new : Roster}
    (h : Change actor op old new) :
    lifecycleAfter l actor op (standing old l) = Groups.standing new l := by
  cases h with
  | added hop hinactive hin hout =>
    subst hop
    unfold lifecycleAfter
    dsimp only
    split
    · next hl =>
      obtain ⟨m, hm, hactive, -⟩ := hin l hl
      simp [Groups.standing, hm, hactive, GroupMembershipState.lifecycle]
    · next hl => rw [Groups.standing, Groups.standing, hout l hl]
  | left hop hm hlast hin hout | removed hop hne ha hm hactive howner hrank hin hout =>
    subst hop
    unfold lifecycleAfter
    dsimp only
    split
    · next hl =>
      subst hl
      simp [Groups.standing, hin, GroupMembershipState.lifecycle]
    · next hl => rw [Groups.standing, Groups.standing, hout l (Ne.symm hl)]
  | @transferred target a m hop hne ha howner hm hactive hactor hin hout =>
    subst hop
    show Groups.standing old l = Groups.standing new l
    by_cases hl : l = actor
    · subst hl
      simp [Groups.standing, ha, hactor]
    by_cases hl' : l = target
    · subst hl'
      simp [Groups.standing, hm, hin]
    · rw [Groups.standing, Groups.standing, hout l hl hl']
  | @roleChanged target role m hop hrole hactor hm howner hin hout =>
    subst hop
    show Groups.standing old l = Groups.standing new l
    by_cases hl : l = target
    · subst hl
      simp [Groups.standing, hm, hin]
    · rw [Groups.standing, Groups.standing, hout l hl]
  | renamed hop hout =>
    subst hop
    show Groups.standing old l = Groups.standing new l
    rw [Groups.standing, Groups.standing, hout l]

section ApplyOperation

open GroupAuthorization

variable {f : GroupFields} {l l' : UserId} {e : GroupControlEvent}

theorem guarded_eq_some {β : Type} {c : Bool} {x : Option β} {b : β} :
    (if !c then none else x) = some b ↔ c = true ∧ x = some b := by
  cases c <;> simp

theorem guarded_map {β γ : Type} {c : Bool} {x : γ} {y : β} {g : β → γ} (h : x = g y) :
    (if c then none else some x) = Option.map g (if c then none else some y) := by
  cases c <;> simp [h]

theorem applyOperation_local (f : GroupFields) (l l' : UserId) (c : GroupLifecycle)
    (e : GroupControlEvent) :
    applyOperation l f e = (applyOperation l' { f with lifecycle := c } e).map fun next =>
      { next with lifecycle := lifecycleAfter l e.signerUserId e.operation f.lifecycle } := by
  unfold applyOperation lifecycleAfter
  cases e.operation with
  | create => rfl
  | addMembers added =>
    exact guarded_map (by rw [foldl_addMember, foldl_addMember]; rfl)
  | removeMember target =>
    dsimp only
    by_cases htarget : target = e.signerUserId
    · subst htarget
      rw [if_pos rfl, if_pos rfl, if_pos rfl]
      exact guarded_map rfl
    · rw [if_neg htarget, if_neg htarget, if_neg htarget]
      exact guarded_map rfl
  | changeRole target role =>
    dsimp only
    by_cases hrole : role = .owner
    · rw [if_pos hrole, if_pos hrole]
      exact guarded_map rfl
    · rw [if_neg hrole, if_neg hrole]
      exact guarded_map rfl
  | rename metadata => exact guarded_map rfl

theorem applyOperation_change {next : Mutable} (hnodup : (f.members.map (·.userId)).Nodup)
    (h : applyOperation l f e = some next) :
    Active (memberOf f.members) e.signerUserId ∧
      Change e.signerUserId e.operation (memberOf f.members) (memberOf next.members) ∧
      (next.members.map (·.userId)).Nodup := by
  unfold applyOperation at h
  cases hop : e.operation with
  | create => rw [hop] at h; cases h
  | addMembers added =>
    rw [hop] at h
    dsimp only at h
    split at h
    · cases h
    next hmay =>
    rw [Bool.or_eq_true, not_or, Bool.not_eq_true', Bool.not_eq_false, Bool.not_eq_true] at hmay
    obtain ⟨hroles, hcan⟩ := hmay
    obtain ⟨hadded, hactor, hinactive⟩ := canAdd_eq_true hcan
    rw [foldl_addMember] at h
    cases h
    obtain ⟨hin, hout⟩ := memberOf_foldl_addToRoster (f := f) hadded fun _ _ => rfl
    refine ⟨hactor, .added rfl hinactive ?_ hout,
      nodup_foldl_addToRoster hadded (fun _ _ => rfl) hnodup⟩
    intro u hu
    obtain ⟨m, hm, rfl⟩ := mem_map.mp hu
    obtain ⟨m', hm', hmembership, hrole⟩ := hin m hm
    have hclean := List.any_eq_false.mp hroles m hm
    simp only [Bool.or_eq_true, not_or, Bool.not_eq_true, Bool.not_eq_false', GroupMember.isActive,
      beq_iff_eq, bne_iff_ne, ne_eq, not_not] at hclean
    exact ⟨m', hm', hmembership.trans hclean.1, hrole.trans hclean.2⟩
  | removeMember target =>
    rw [hop] at h
    dsimp only at h
    split at h
    · next htarget =>
      subst htarget
      obtain ⟨hcan, ⟨⟩⟩ := guarded_eq_some.mp h
      obtain ⟨m, hm, hactive, hlast⟩ := canLeave_eq_true hnodup hcan
      refine ⟨⟨m, hm, hactive⟩, .left rfl hm hlast ?_ fun u hu => ?_, ?_⟩
      · simp [memberOf_replaceMember, hm]
      · simp [memberOf_replaceMember, hu]
      · simpa [map_userId_replaceMember] using hnodup
    · obtain ⟨hcan, ⟨⟩⟩ := guarded_eq_some.mp h
      obtain ⟨hne, a, m, ha, hactive, hm, hmactive, howner, hrank⟩ := canRemove_eq_true hcan
      refine ⟨⟨a, ha, hactive⟩, .removed rfl hne ha hm hmactive howner hrank ?_ fun u hu => ?_, ?_⟩
      · simp [memberOf_replaceMember, hm]
      · simp [memberOf_replaceMember, hu]
      · simpa [map_userId_replaceMember] using hnodup
  | changeRole target role =>
    rw [hop] at h
    dsimp only at h
    split at h
    · next hrole =>
      subst hrole
      obtain ⟨hcan, ⟨⟩⟩ := guarded_eq_some.mp h
      obtain ⟨hne, a, m, ha, hactive, howner, hm, hmactive, -⟩ := canTransferOwnership_eq_true hcan
      refine ⟨⟨a, ha, hactive⟩,
        .transferred rfl hne ha howner hm hmactive ?_ ?_ fun u hu hu' => ?_, ?_⟩
      · simp [memberOf_replaceMember, Ne.symm hne, ha]
      · simp [memberOf_replaceMember, hne, hm]
      · simp [memberOf_replaceMember, hu, hu']
      · simpa [map_userId_replaceMember] using hnodup
    · obtain ⟨hcan, ⟨⟩⟩ := guarded_eq_some.mp h
      obtain ⟨hrole, a, m, ha, hactive, howner, hm, hmactive, hmowner⟩ := canChangeRole_eq_true hcan
      refine ⟨⟨a, ha, hactive⟩,
        .roleChanged rfl hrole ⟨a, ha, hactive, howner⟩ hm hmowner ?_ fun u hu => ?_, ?_⟩
      · simp [memberOf_replaceMember, hm]
      · simp [memberOf_replaceMember, hu]
      · simpa [map_userId_replaceMember] using hnodup
  | rename metadata =>
    rw [hop] at h
    dsimp only at h
    split at h
    · cases h
    next hmay =>
    rw [Bool.or_eq_true, not_or, Bool.not_eq_true', Bool.not_eq_true', Bool.not_eq_false,
      Bool.not_eq_false] at hmay
    obtain ⟨m, hm, hactive, -⟩ := allowsControl_eq_true.mp hmay.2
    cases h
    exact ⟨⟨m, hm, hactive⟩, .renamed rfl fun _ => rfl, hnodup⟩

end ApplyOperation

/-! ## States -/

section States

variable {s s' : GroupState} {l : UserId} {e : SignedGroupControlEvent} {f : GroupFields}

theorem GroupState.make_eq_some (h : GroupState.make f = some s) :
    s.toGroupFields = { f with members := sortedMembers f.members } := by
  unfold GroupState.make at h
  split at h
  · cases h
    rfl
  · cases h

theorem GroupState.nodup (s : GroupState) : (s.members.map (·.userId)).Nodup := by
  have h := s.checked
  simp only [GroupFields.check, Bool.and_eq_true, decide_eq_true_eq] at h
  exact h.1.1.2

theorem GroupState.memberOf_make (h : GroupState.make f = some s) :
    memberOf s.members = memberOf f.members := by
  have hfields := GroupState.make_eq_some h
  have hmembers : s.members = sortedMembers f.members := by rw [hfields]
  have hnodup := s.nodup
  rw [hmembers] at hnodup ⊢
  funext u
  exact memberOf_sortedMembers (((sortedMembers_perm _).map _).nodup_iff.mp hnodup)

abbrev GroupState.roster (s : GroupState) : Roster := memberOf s.members

theorem extendGroup_eq_ok (h : extendGroup l s e = .ok s') : Active s.roster e.event.signerUserId ∧
      Change e.event.signerUserId e.event.operation s.roster s'.roster ∧
      s'.lifecycle = lifecycleAfter l e.event.signerUserId e.event.operation s.lifecycle := by
  obtain ⟨next, hnext, h⟩ := bind_eq_ok.mp h
  have hnext := okOr_eq_ok.mp hnext
  have hmake := okOr_eq_ok.mp h
  obtain ⟨hactor, hchange, -⟩ := applyOperation_change s.nodup hnext
  have hlocal := applyOperation_local s.toGroupFields l l s.lifecycle e.event
  rw [hnext] at hlocal
  have hlifecycle := congrArg Mutable.lifecycle (Option.some.inj hlocal)
  refine ⟨hactor, ?_, ?_⟩
  · rw [GroupState.roster, GroupState.roster, GroupState.memberOf_make hmake]
    exact hchange
  · rw [GroupState.make_eq_some hmake]
    exact hlifecycle

/-- What a first event leaves: active members, the signer their only owner. -/
theorem createGroup_eq_ok (h : createGroup l e = .ok s) :
    (∀ u m, s.roster u = some m → m.membership = .active) ∧
      (∀ u, ActiveOwner s.roster u ↔ u = e.event.signerUserId) ∧
      s.lifecycle = standing s.roster l := by
  unfold createGroup at h
  split at h
  · next metadata invitationPolicy historySharingPolicy members hop =>
    split at h
    · cases h
    next hvalid =>
    split at h
    · cases h
    next howners =>
    have hmake := okOr_eq_ok.mp h
    have hroster : s.roster = memberOf members := GroupState.memberOf_make hmake
    have hfields := GroupState.make_eq_some hmake
    have hnodup : (members.map (·.userId)).Nodup := by
      have hs := s.nodup
      rw [show s.members = sortedMembers members by rw [hfields]] at hs
      exact ((sortedMembers_perm _).map _).nodup_iff.mp hs
    simp only [Bool.or_eq_true, not_or, Bool.not_eq_true, List.any_eq_false, Bool.not_eq_false',
      GroupMember.isActive, beq_iff_eq] at hvalid
    have hactive : ∀ u m, s.roster u = some m → m.membership = .active := by
      intro u m hm
      rw [hroster] at hm
      simpa using hvalid.2 m ((memberOf_eq_some hnodup).mp hm).1
    refine ⟨hactive, fun u => ?_, ?_⟩
    · rw [not_not] at howners
      have hmem : u ∈ (members.filter (·.role = .owner)).map (·.userId) ↔
          u = e.event.signerUserId := by
        rw [howners, mem_singleton]
      rw [← hmem, mem_map]
      constructor
      · rintro ⟨m, hm, -, hrole⟩
        rw [hroster] at hm
        obtain ⟨hin, hid⟩ := (memberOf_eq_some hnodup).mp hm
        exact ⟨m, mem_filter.mpr ⟨hin, by simpa using hrole⟩, hid⟩
      · rintro ⟨m, hm, hid⟩
        obtain ⟨hin, hrole⟩ := mem_filter.mp hm
        have hfound : s.roster u = some m := by
          rw [hroster]
          exact (memberOf_eq_some hnodup).mpr ⟨hin, hid⟩
        exact ⟨m, hfound, hactive u m hfound, by simpa using hrole⟩
    · rw [show s.lifecycle = if members.any (·.userId = l) then .active else .removed by rw [hfields],
        hroster]
      unfold standing
      cases hm : memberOf members l with
      | none =>
        refine if_neg fun hany => ?_
        obtain ⟨m, hin, hid⟩ := List.any_eq_true.mp hany
        have hfound := (memberOf_eq_some hnodup).mpr ⟨hin, by simpa using hid⟩
        rw [hm] at hfound
        cases hfound
      | some m =>
        obtain ⟨hin, hid⟩ := (memberOf_eq_some hnodup).mp hm
        rw [if_pos (List.any_eq_true.mpr ⟨m, hin, by simpa using hid⟩)]
        simp [hactive l m (hroster ▸ hm), GroupMembershipState.lifecycle]
  · cases h

end States

end CommPlatform.Groups
