import CommPlatform.L5Rooms.RoomModel

/-!
# Room rosters

What a room's state says of the room is the same on every device; what it
says of the device follows from the last thing that happened to its user
(`MembershipChange`).

* `devices_lockstep`: two devices decide alike on every event.
* `history_held`: after any history, the membership of every account, and the
  lifecycle and `removedByUserId` of the device, are told by the last change.
-/
namespace CommPlatform.Rooms

open CommPlatform.Core ControlMachine

/-! ## What happens to one account -/

inductive MembershipChange
  | joined
  | left
  | removed (signer : UserId)

namespace MembershipChange

def membership : MembershipChange → RoomMembershipState
  | joined => .active
  | left => .left
  | removed _ => .removed

def lifecycle : MembershipChange → RoomLifecycle
  | joined => .active
  | left => .left
  | removed _ => .removed

end MembershipChange

/-- The change an accepted event makes to an account, if any. -/
def changeOf (u : UserId) (event : RoomControlEvent) : Option MembershipChange :=
  match event.operation with
  | .create _ memberUserIds => if u ∈ memberUserIds then some .joined else none
  | .addMembers userIds => if u ∈ userIds then some .joined else none
  | .removeMember target =>
    if target = u then some (if u = event.signerUserId then .left else .removed event.signerUserId)
    else none
  | .rename _ => none

def lastChange (u : UserId) (events : List SignedRoomControlEvent) : Option MembershipChange :=
  (events.filterMap fun e => changeOf u e.event).getLast?

theorem lastChange_snoc (u : UserId) (events : List SignedRoomControlEvent)
    (e : SignedRoomControlEvent) :
    lastChange u (events ++ [e]) = (changeOf u e.event).or (lastChange u events) := by
  unfold lastChange
  cases h : changeOf u e.event <;> simp [List.filterMap_append, h]

/-! ## Operations on the roster alone -/

def addToRoster (r : RoomRoster) (members : List RoomMember) (userId : UserId) :
    List RoomMember :=
  if (r.member userId).isNone then members ++ [⟨userId, .active⟩]
  else replaceMember userId .active members

/-- The state of the roster, without a device's part. -/
def RoomRoster.plain (r : RoomRoster) : RoomFields := ⟨r, .active, none, none⟩

open RoomAuthorization in
def changedRoster (r : RoomRoster) (event : RoomControlEvent) : Option (String × List RoomMember) :=
  let actor := event.signerUserId
  match event.operation with
  | .create .. => none
  | .addMembers userIds =>
    if canAdd r.plain actor userIds true then some (r.name, userIds.foldl (addToRoster r) r.members)
    else none
  | .removeMember target =>
    if canRemove r.plain actor target true then
      some (r.name, replaceMember target (if target = actor then .left else .removed) r.members)
    else none
  | .rename name =>
    if canRename r.plain actor name true then some (RoomNames.normalized name, r.members) else none

def lifecycleAfter (l : UserId) (event : RoomControlEvent) (c : RoomLifecycle) : RoomLifecycle :=
  ((changeOf l event).map (·.lifecycle)).getD c

def removedByAfter (l : UserId) (event : RoomControlEvent) (by_ : Option UserId) : Option UserId :=
  match changeOf l event with
  | some .joined => none
  | some (.removed signer) => some signer
  | _ => by_

theorem addMember_eq (f : RoomFields) (l : UserId) (mutable : Mutable) (userId : UserId) :
    addMember f l mutable userId =
      { mutable with
        members := addToRoster f.toRoomRoster mutable.members userId
        lifecycle := if userId = l then .active else mutable.lifecycle
        removedByUserId := if userId = l then none else mutable.removedByUserId } := by
  unfold addMember addToRoster
  split <;> split <;> rfl

theorem foldl_addMember (f : RoomFields) (l : UserId) (mutable : Mutable) (userIds : List UserId) :
    userIds.foldl (addMember f l) mutable =
      { mutable with
        members := userIds.foldl (addToRoster f.toRoomRoster) mutable.members
        lifecycle := if l ∈ userIds then .active else mutable.lifecycle
        removedByUserId := if l ∈ userIds then none else mutable.removedByUserId } := by
  induction userIds generalizing mutable with
  | nil => simp
  | cons userId userIds ih =>
    rw [List.foldl_cons, ih, addMember_eq]
    by_cases hl : userId = l
    · subst hl
      simp
    · simp [hl, Ne.symm hl]

theorem admitted_map {β γ : Type} {c : Bool} {x : Option γ} {y : β} {g : β → γ}
    (h : x = some (g y)) :
    (if !c then none else x) = Option.map g (if c then some y else none) := by
  cases c <;> simp [h]

/-- An operation changes the roster by the roster alone, and the device's part by what it does to
the device's user. -/
theorem applyOperation_roster (l : UserId) (f : RoomFields) (event : RoomControlEvent) :
    applyOperation l f event = (changedRoster f.toRoomRoster event).map fun r =>
      ⟨r.1, r.2, lifecycleAfter l event f.lifecycle, removedByAfter l event f.removedByUserId⟩ := by
  unfold applyOperation changedRoster lifecycleAfter removedByAfter changeOf
  cases event.operation with
  | create name memberUserIds => rfl
  | addMembers userIds =>
    refine admitted_map ?_
    rw [foldl_addMember]
    by_cases hl : l ∈ userIds <;> simp [hl, MembershipChange.lifecycle]
  | removeMember target =>
    dsimp only
    by_cases hactor : target = event.signerUserId
    · subst hactor
      rw [if_pos rfl]
      refine admitted_map ?_
      by_cases hl : event.signerUserId = l
      · subst hl
        simp [MembershipChange.lifecycle]
      · simp [hl]
    · rw [if_neg hactor]
      refine admitted_map ?_
      by_cases hl : target = l
      · subst hl
        simp [hactor, MembershipChange.lifecycle]
      · simp [hactor, hl]
  | rename name => exact admitted_map rfl

/-! ## Two devices -/

/-- The states of two devices say the same of the room, and neither is frozen. -/
structure SameRoom (s t : RoomState) : Prop where
  roster : s.toRoomRoster = t.toRoomRoster
  left : s.lifecycle.isQuarantined = false
  right : t.lifecycle.isQuarantined = false

section Make

variable {r : RoomRoster} {c c' : RoomLifecycle} {b b' : Option UserId} {s : RoomState}

theorem RoomState.make_eq_some {f : RoomFields} (h : RoomState.make f = some s) :
    s.toRoomFields = { f with members := sortedMembers f.members } := by
  unfold RoomState.make at h
  dsimp only at h
  split at h
  · cases h
    rfl
  · cases h

theorem make_local (hc : c.isQuarantined = false) (hc' : c'.isQuarantined = false) :
    Option.Rel SameRoom (RoomState.make ⟨r, c, none, b⟩) (RoomState.make ⟨r, c', none, b'⟩) := by
  have hcheck : ∀ (d : RoomLifecycle) (a : Option UserId), d.isQuarantined = false →
      RoomFields.check ⟨{ r with members := sortedMembers r.members }, d, none, a⟩ =
        RoomRoster.check { r with members := sortedMembers r.members } := by
    intro d a hd
    simp [RoomFields.check, hd]
  unfold RoomState.make
  by_cases h : RoomRoster.check { r with members := sortedMembers r.members } = true
  · rw [dif_pos ((hcheck c b hc).trans h), dif_pos ((hcheck c' b' hc').trans h)]
    exact .some ⟨rfl, hc, hc'⟩
  · rw [dif_neg fun h' => h ((hcheck c b hc).symm.trans h'),
      dif_neg fun h' => h ((hcheck c' b' hc').symm.trans h')]
    exact .none

theorem sameResult_okOr {p q : Option RoomState} (h : Option.Rel SameRoom p q)
    (reason : RoomQuarantineReason) : SameResult SameRoom (okOr p reason) (okOr q reason) := by
  cases h with
  | none => rfl
  | some h => exact h

end Make

section Lockstep

variable {l l' : UserId} {s t : RoomState} {e : SignedRoomControlEvent}

theorem lifecycleAfter_free {c : RoomLifecycle}
    (hc : c.isQuarantined = false) : (lifecycleAfter l event c).isQuarantined = false := by
  unfold lifecycleAfter
  cases changeOf l event with
  | none => exact hc
  | some change => cases change <;> rfl

theorem extendRoom_eq (l : UserId) (s : RoomState) (e : SignedRoomControlEvent) :
    extendRoom l s e = (okOr (changedRoster s.toRoomRoster e.event) .unauthorizedControl >>= fun r =>
      okOr (RoomState.make ⟨⟨s.roomId, r.1, r.2, e.event.revision, e.controlStateHash⟩,
        lifecycleAfter l e.event s.lifecycle, none,
        removedByAfter l e.event s.removedByUserId⟩) .invalidMembership) := by
  unfold extendRoom
  rw [applyOperation_roster]
  cases changedRoster s.toRoomRoster e.event <;> rfl

theorem extendRoom_same (h : SameRoom s t) :
    SameResult SameRoom (extendRoom l s e) (extendRoom l' t e) := by
  rw [extendRoom_eq, extendRoom_eq, h.roster]
  cases changedRoster t.toRoomRoster e.event with
  | none => rfl
  | some r =>
    exact sameResult_okOr
      (make_local (lifecycleAfter_free h.left) (lifecycleAfter_free h.right)) _

/-- A first event is refused by everyone, or everyone makes the same roster of it. -/
theorem createRoom_cases (e : SignedRoomControlEvent) :
    (∃ reason, ∀ l, createRoom l e = .error reason) ∨
      ∃ name memberUserIds, e.event.operation = .create name memberUserIds ∧ memberUserIds.Nodup ∧
        ∀ l, createRoom l e = okOr (RoomState.make
          ⟨⟨e.event.roomId, RoomNames.normalized name, memberUserIds.map fun u => ⟨u, .active⟩, 1,
            e.controlStateHash⟩, lifecycleAfter l e.event .removed, none, none⟩)
          .invalidMembership := by
  cases hop : e.event.operation with
  | create name memberUserIds =>
    have hlifecycle : ∀ l, lifecycleAfter l e.event .removed =
        if memberUserIds.contains l then RoomLifecycle.active else .removed := by
      intro l
      rw [lifecycleAfter, changeOf, hop]
      by_cases hl : l ∈ memberUserIds <;> simp [hl, MembershipChange.lifecycle]
    by_cases hvalid : (!RoomNames.isValid name || memberUserIds.length < minimumCreateMembers ||
        memberUserIds.length > maximumMembers || !decide memberUserIds.Nodup) = true
    · refine .inl ⟨.invalidMembership, fun l => ?_⟩
      unfold createRoom
      rw [hop]
      exact if_pos hvalid
    by_cases hsigner : (!memberUserIds.contains e.event.signerUserId) = true
    · refine .inl ⟨.unauthorizedControl, fun l => ?_⟩
      unfold createRoom
      rw [hop]
      dsimp only
      rw [if_neg hvalid, if_pos hsigner]
    · refine .inr ⟨name, memberUserIds, rfl, ?_, fun l => ?_⟩
      · simp only [Bool.or_eq_true, not_or, Bool.not_eq_true, Bool.not_eq_false',
          decide_eq_true_eq] at hvalid
        exact hvalid.2
      · unfold createRoom
        rw [hop, hlifecycle]
        dsimp only
        rw [if_neg hvalid, if_neg hsigner]
  | _ =>
    refine .inl ⟨.invalidMembership, fun l => ?_⟩
    unfold createRoom
    rw [hop]

theorem createRoom_same (l l' : UserId) (e : SignedRoomControlEvent) :
    SameResult SameRoom (createRoom l e) (createRoom l' e) := by
  obtain ⟨reason, hrefused⟩ | ⟨name, memberUserIds, -, -, hmade⟩ := createRoom_cases e
  · rw [hrefused, hrefused]
    rfl
  · rw [hmade l, hmade l']
    have hfree : RoomLifecycle.removed.isQuarantined = false := rfl
    exact sameResult_okOr (make_local (lifecycleAfter_free hfree) (lifecycleAfter_free hfree)) _

theorem devices_lockstep (l l' : UserId) :
    Lockstep (stateMachine l) (stateMachine l') SameRoom fun _ _ => False where
  link := rfl
  brokenChain := rfl
  siblingControl := rfl
  head := by
    intro s t h
    change s.head = t.head
    unfold RoomState.head
    rw [h.roster]
  create := createRoom_same l l'
  extend := fun h _ _ => extendRoom_same h
  split := fun _ _ hsplit => hsplit.elim

end Lockstep

/-! ## The roster by the last change of every account -/

def status (members : List RoomMember) (u : UserId) : Option RoomMembershipState :=
  (lookup (·.userId) members u).map (·.membership)

section Status

variable {r : RoomRoster} {members : List RoomMember} {u v : UserId} {a : RoomMembershipState}

theorem status_append :
    status (members ++ [⟨u, a⟩]) v = (status members v).or (if u = v then some a else none) := by
  unfold status
  rw [lookup_append_singleton]
  cases lookup (·.userId) members v <;> split <;> simp

theorem status_replaceMember :
    status (replaceMember u a members) v =
      if v = u then (status members u).map fun _ => a else status members v := by
  unfold status replaceMember
  rw [lookup_replaceKey fun _ h => by exact h]
  split
  · rw [Option.map_map, Option.map_map]
    rfl
  · rfl

theorem status_sortedMembers (hnodup : (members.map (·.userId)).Nodup) :
    status (sortedMembers members) u = status members u := by
  unfold status sortedMembers
  rw [lookup_perm (List.perm_insertionSort _ _) hnodup]

theorem isActiveMember_iff : r.isActiveMember u = true ↔ status r.members u = some .active := by
  unfold RoomRoster.isActiveMember RoomRoster.member status
  cases lookup (·.userId) r.members u <;> simp [RoomMember.isActive]

theorem status_addToRoster (hsame : (status members u).isNone = (r.member u).isNone) :
    status (addToRoster r members u) v = if v = u then some .active else status members v := by
  unfold addToRoster
  rw [← hsame]
  split
  · next hnone =>
    rw [status_append]
    by_cases hv : v = u
    · subst hv
      rw [Option.isNone_iff_eq_none.mp hnone]
      simp
    · simp [hv, Ne.symm hv]
  · next hsome =>
    rw [status_replaceMember]
    obtain ⟨a, ha⟩ := Option.ne_none_iff_exists'.mp (fun h => hsome (Option.isNone_iff_eq_none.mpr h))
    rw [ha]
    rfl

theorem status_foldl_addToRoster {userIds : List UserId} (hnodup : userIds.Nodup)
    (hsame : ∀ u ∈ userIds, (status members u).isNone = (r.member u).isNone) :
    status (userIds.foldl (addToRoster r) members) v =
      if v ∈ userIds then some .active else status members v := by
  induction userIds generalizing members with
  | nil => simp
  | cons u userIds ih =>
    obtain ⟨hfirst, hrest⟩ := List.nodup_cons.mp hnodup
    have hu := hsame u List.mem_cons_self
    have hlater : ∀ w ∈ userIds,
        (status (addToRoster r members u) w).isNone = (r.member w).isNone := by
      intro w hw
      have hne : w ≠ u := fun heq => hfirst (heq ▸ hw)
      rw [status_addToRoster hu, if_neg hne]
      exact hsame w (List.mem_cons_of_mem _ hw)
    rw [List.foldl_cons, ih hrest hlater, status_addToRoster hu]
    by_cases hv : v = u <;> simp [hv]

theorem status_changedRoster {next : String × List RoomMember}
    (h : changedRoster r event = some next) :
    status next.2 v = ((changeOf v event).map (·.membership)).or (status r.members v) := by
  unfold changedRoster at h
  unfold changeOf
  cases hop : event.operation with
  | create name memberUserIds => simp [hop] at h
  | addMembers userIds =>
    rw [hop] at h
    dsimp only at h ⊢
    split at h
    · next hadd =>
      cases h
      have hnodup : userIds.Nodup := by
        unfold RoomAuthorization.canAdd at hadd
        split at hadd
        · cases hadd
        · next hvalid =>
          simp only [Bool.or_eq_true, not_or, Bool.not_eq_true, Bool.not_eq_false',
            decide_eq_true_eq] at hvalid
          exact hvalid.1.1.2
      rw [status_foldl_addToRoster hnodup fun u _ => by
        unfold status RoomRoster.member
        rw [Option.isNone_map]]
      by_cases hv : v ∈ userIds <;> simp [hv, MembershipChange.membership]
    · cases h
  | removeMember target =>
    rw [hop] at h
    dsimp only at h ⊢
    split at h
    · next hremove =>
      cases h
      have hactive : status r.members target = some .active :=
        isActiveMember_iff.mp ((Bool.and_eq_true _ _).mp hremove).2
      rw [status_replaceMember, hactive]
      by_cases hv : v = target
      · subst hv
        by_cases hsigner : v = event.signerUserId <;> simp [hsigner, MembershipChange.membership]
      · simp [hv, Ne.symm hv]
    · cases h
  | rename name =>
    rw [hop] at h
    dsimp only at h ⊢
    split at h
    · cases h
      rfl
    · cases h

end Status

/-! ## The device's part by the last change of its user -/

/-- What the last change of an account makes of a device's lifecycle. -/
def lifecycleOf (last : Option MembershipChange) : RoomLifecycle :=
  (last.map (·.lifecycle)).getD .removed

def removedByOf : Option MembershipChange → Option UserId
  | some (.removed signer) => some signer
  | _ => none

/-- What a device of `l` holds after the events. -/
structure Held (l : UserId) (events : List SignedRoomControlEvent) (s : RoomState) : Prop where
  status : ∀ u, status s.members u = (lastChange u events).map (·.membership)
  lifecycle : s.lifecycle = lifecycleOf (lastChange l events)
  removedBy : s.removedByUserId = removedByOf (lastChange l events)

section Held

variable {l : UserId} {events : List SignedRoomControlEvent} {e : SignedRoomControlEvent}
  {s s' : RoomState}

theorem RoomState.status_make {f : RoomFields} (h : RoomState.make f = some s) (u : UserId) :
    Rooms.status s.members u = Rooms.status f.members u := by
  have hfields := RoomState.make_eq_some h
  have hmembers : s.members = sortedMembers f.members := by rw [hfields]
  have hchecked := s.checked
  simp only [RoomFields.check, RoomRoster.check, Bool.and_eq_true, decide_eq_true_eq] at hchecked
  have hnodup := hchecked.1.2
  rw [hmembers] at hnodup ⊢
  exact status_sortedMembers (((List.perm_insertionSort _ _).map _).nodup_iff.mp hnodup)

theorem status_create (memberUserIds : List UserId) (u : UserId) :
    status (memberUserIds.map fun u => ⟨u, .active⟩) u =
      if u ∈ memberUserIds then some .active else none := by
  induction memberUserIds with
  | nil => rfl
  | cons v memberUserIds ih =>
    unfold status at ih ⊢
    rw [List.map_cons, lookup_cons]
    by_cases hv : v = u
    · simp [hv]
    · simp only [hv, if_false, ih, List.mem_cons, Ne.symm hv, false_or]

theorem createRoom_held (h : createRoom l e = .ok s) : Held l [e] s := by
  obtain ⟨reason, hrefused⟩ | ⟨name, memberUserIds, hop, -, hmade⟩ := createRoom_cases e
  · rw [hrefused] at h
    cases h
  rw [hmade] at h
  have hmake := okOr_eq_ok.mp h
  have hlast : ∀ u, lastChange u [e] = if u ∈ memberUserIds then some .joined else none := by
    intro u
    have hsnoc := lastChange_snoc u [] e
    rw [List.nil_append] at hsnoc
    rw [hsnoc, changeOf, hop]
    dsimp only
    split <;> rfl
  refine ⟨fun u => ?_, ?_, ?_⟩
  · rw [RoomState.status_make hmake, status_create, hlast]
    split <;> rfl
  · rw [RoomState.make_eq_some hmake, hlast]
    rw [lifecycleAfter, changeOf, hop]
    dsimp only
    split <;> rfl
  · rw [RoomState.make_eq_some hmake, hlast]
    split <;> rfl

theorem leaves_active {r : RoomRoster} {next : String × List RoomMember}
    (h : changedRoster r event = some next) (hleft : changeOf l event = some .left) :
    status r.members l = some .active := by
  unfold changedRoster at h
  unfold changeOf at hleft
  cases hop : event.operation with
  | removeMember target =>
    rw [hop] at h hleft
    dsimp only at h hleft
    split at hleft
    · next htarget =>
      subst htarget
      split at h
      · next hremove => exact isActiveMember_iff.mp ((Bool.and_eq_true _ _).mp hremove).2
      · cases h
    · cases hleft
  | _ =>
    rw [hop] at hleft
    dsimp only at hleft
    first
    | cases hleft
    | (split at hleft <;> cases hleft)

theorem extendRoom_held (hs : Held l events s) (h : extendRoom l s e = .ok s') :
    Held l (events ++ [e]) s' := by
  rw [extendRoom_eq] at h
  obtain ⟨next, hnext, h⟩ := bind_eq_ok.mp h
  have hchanged := okOr_eq_ok.mp hnext
  have hmake := okOr_eq_ok.mp h
  have hfields := RoomState.make_eq_some hmake
  refine ⟨fun u => ?_, ?_, ?_⟩
  · rw [RoomState.status_make hmake, status_changedRoster hchanged, hs.status, lastChange_snoc]
    cases changeOf u e.event <;> rfl
  · rw [hfields, lastChange_snoc]
    rw [lifecycleAfter, hs.lifecycle]
    cases changeOf l e.event <;> rfl
  · rw [hfields, lastChange_snoc]
    unfold removedByAfter
    cases hchange : changeOf l e.event with
    | none => exact hs.removedBy
    | some change =>
      cases change with
      | joined => rfl
      | removed signer => rfl
      | left =>
        -- who leaves was in the room, so that nobody had removed it
        have hactive := leaves_active hchanged hchange
        rw [hs.status] at hactive
        rw [hs.removedBy]
        cases hlast : lastChange l events with
        | none => rfl
        | some last => cases last <;> simp_all [MembershipChange.membership, removedByOf]

theorem history_held (h : History (stateMachine l) events (some s)) : Held l events s := by
  generalize hp : some s = p at h
  induction h generalizing s with
  | nil => cases hp
  | @snoc front r e s' hfront haccepted ih =>
    cases hp
    obtain ⟨rfl, -, hcreate⟩ | ⟨t, rfl, -, hextend⟩ := apply_accepted haccepted
    · rw [hfront.eq_nil]
      exact createRoom_held hcreate
    · exact extendRoom_held (ih rfl) hextend

theorem Held.active_iff (h : Held l events s) :
    s.lifecycle = .active ↔ s.isActiveMember l = true := by
  rw [isActiveMember_iff, h.status, h.lifecycle]
  cases lastChange l events with
  | none => simp [lifecycleOf]
  | some last => cases last <;> simp [lifecycleOf, MembershipChange.lifecycle,
      MembershipChange.membership]

theorem Held.removedBy_iff (h : Held l events s) {signer : UserId} :
    s.removedByUserId = some signer ↔ lastChange l events = some (.removed signer) := by
  rw [h.removedBy]
  cases lastChange l events with
  | none => simp [removedByOf]
  | some last => cases last <;> simp [removedByOf]

/-- A removal is signed by somebody else. -/
theorem lastChange_removed {u signer : UserId}
    (h : lastChange u events = some (.removed signer)) : signer ≠ u := by
  obtain ⟨e, -, he⟩ := List.mem_filterMap.mp (List.mem_of_getLast? h)
  unfold changeOf at he
  split at he
  · split at he <;> cases he
  · split at he <;> cases he
  · split at he
    · split at he
      · cases he
      · next hne =>
        cases he
        exact Ne.symm hne
    · cases he
  · cases he

end Held

/-- Two devices judge every sequence of events alike and agree on the room; the lifecycle of a device
says whether its user is in the room, and `removedByUserId` who removed it last. -/
theorem rooms_agree (l l' : UserId) (events : List SignedRoomControlEvent) :
    ((stateMachine l).fold none events).1 = ((stateMachine l').fold none events).1 ∧
    Option.Rel (fun s t => s.toRoomRoster = t.toRoomRoster)
      ((stateMachine l).fold none events).2 ((stateMachine l').fold none events).2 ∧
    ∀ s, ((stateMachine l).fold none events).2 = some s →
      (s.lifecycle = .active ↔ s.isActiveMember l = true) ∧
      ∀ signer, s.removedByUserId = some signer ↔ signer ≠ l ∧
        lastChange l ((stateMachine l).accepted none events) = some (.removed signer) := by
  obtain ⟨hverdicts, hstates⟩ :=
    ((devices_lockstep l l').agree_iff events .none).mpr (noSplit_false events)
  refine ⟨hverdicts, rel_mono (fun h => h.roster) hstates, fun s hs => ?_⟩
  have hhistory := (History.nil (M := stateMachine l)).accepted events
  rw [hs] at hhistory
  have hheld := history_held hhistory
  refine ⟨hheld.active_iff, fun signer => ?_⟩
  rw [hheld.removedBy_iff]
  exact ⟨fun h => ⟨lastChange_removed h, h⟩, fun h => h.2⟩

/-! ## Devices at one head -/

theorem RoomState.head_make {f : RoomFields} {s : RoomState} (h : RoomState.make f = some s) :
    s.head = ⟨f.roomId, f.controlRevision, f.controlStateHash⟩ := by
  rw [RoomState.head, RoomState.make_eq_some h]

theorem stateMachine_tracks (l : UserId) : Tracks (stateMachine l) where
  create := by
    intro e s _ h
    obtain ⟨reason, hrefused⟩ | ⟨name, memberUserIds, -, -, hmade⟩ := createRoom_cases e
    · cases (hrefused l).symm.trans h
    · exact RoomState.head_make (okOr_eq_ok.mp ((hmade l).symm.trans h))
  extend := by
    intro s e s' h
    obtain ⟨next, -, h⟩ := bind_eq_ok.mp h
    exact RoomState.head_make (okOr_eq_ok.mp h)

/-- Two devices at the same head of a room agree on it, whatever each of them received, as long as
the hash tells the events apart that they accepted. -/
theorem same_head_same_room (l l' : UserId) (events events' : List SignedRoomControlEvent)
    (hhash : ∀ e ∈ (stateMachine l).accepted none events,
      ∀ e' ∈ (stateMachine l').accepted none events',
        e.controlStateHash = e'.controlStateHash → e.event = e'.event) :
    let state := ((stateMachine l).fold none events).2
    let state' := ((stateMachine l').fold none events').2
    state.map RoomState.head = state'.map RoomState.head →
      Option.Rel (fun s t => s.toRoomRoster = t.toRoomRoster) state state' := by
  intro state state' hhead
  have ha := (History.nil (M := stateMachine l)).accepted events
  have hb := (History.nil (M := stateMachine l')).accepted events'
  have hsame := ha.map_eq_of_head (k := fun e => (e.event, e.controlStateHash))
    (stateMachine_tracks l) (stateMachine_tracks l') rfl (fun e => e.event.first_iff.mp) hb
    (fun e he e' he' heq => ?_) hhead
  · obtain ⟨-, hagree⟩ := ((devices_lockstep l l').agree_iff _ .none).mpr (noSplit_false _)
    rw [ha.fold_eq, fold_congr (M := stateMachine l') ?_ hsame, hb.fold_eq] at hagree
    · exact rel_mono (fun h => h.roster) hagree
    · rintro ⟨⟩ ⟨⟩ heq p
      cases heq
      rfl
  · have hevent := hhash e he e' he' heq
    cases e
    cases e'
    cases hevent
    cases heq
    exact ⟨rfl, rfl⟩

/-- A room is created and renamed. The second device gets the first event twice. -/
theorem same_head_same_room_renamed : ∃ opening renamed : SignedRoomControlEvent,
    ((stateMachine (.fill 16 1)).fold none [opening, renamed]).2.map (·.name) = some "another" ∧
      Option.Rel (fun s t => s.toRoomRoster = t.toRoomRoster)
        ((stateMachine (.fill 16 1)).fold none [opening, renamed]).2
        ((stateMachine (.fill 16 2)).fold none [opening, opening, renamed]).2 := by
  refine ⟨⟨⟨.fill 16 1, .fill 32 9, 1, none, .fill 16 1, .fill 16 1, 0,
    .create "room" [.fill 16 1, .fill 16 2], by decide, by decide, by decide, by decide, by decide⟩,
    .fill 32 1, [0], .fill 64 0, by decide, by decide⟩,
    ⟨⟨.fill 16 2, .fill 32 9, 2, some (.fill 32 1), .fill 16 1, .fill 16 1, 0,
    .rename "another", by decide, by decide, by decide, by decide, by decide⟩,
    .fill 32 2, [1], .fill 64 0, by decide, by decide⟩, by decide,
    same_head_same_room _ _ _ _ (fun e he e' he' hhash => ?_) (by decide)⟩
  -- both accept the two events, whose hashes differ
  replace he := List.mem_pair.mp he
  replace he' := List.mem_pair.mp he'
  obtain rfl | rfl := he <;> obtain rfl | rfl := he' <;>
    first | rfl | exact absurd hhash (by decide)

end CommPlatform.Rooms
