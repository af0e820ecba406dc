import CommPlatform.L5Contacts.ForkReports

/-!
# A peer that changed while nobody looked

The client holds an honest snapshot of an account: the record of head `n` and
the device list that head covers. Since then the account has gone on, each
change with its log record: a device rotated its prekeys and moved its bundle
version on by one, was added, or was revoked. The server is honest and
nothing changes during the call.

The log proves every change, but `_isValidDeviceTransition`
(client_authentication_service.dart:849-891) compares the cached and the
current version of a device and refuses more than one step.
`confirmOutOfBand` begins with the same refresh.
-/
namespace CommPlatform.Contacts

open CommPlatform.Core

/-! ## Histories -/

section History

variable (sign : Uuid → Nat → Bytes)

def SignedAt (d : PeerPublicDevice) (v : Nat) : Prop :=
  d.bundleVersion = some v ∧ d.crossSignature = some (sign d.deviceId v)

structure Listed (live : List PeerPublicDevice) : Prop where
  distinct : (live.map (·.deviceId)).Nodup
  signed : ∀ d ∈ live, ∃ v, SignedAt sign d v

def rotated (id : Uuid) (d : PeerPublicDevice) : PeerPublicDevice :=
  if d.deviceId = id then
    { d with
      bundleVersion := d.bundleVersion.map (· + 1)
      crossSignature := d.bundleVersion.map fun v => sign id (v + 1) }
  else d

/-- Every device id that was ever live. -/
def used (log : List Landed) : List Uuid := log.flatMap fun l => l.live.map (·.deviceId)

/-- One change of the live set; the server may list it in any order. -/
inductive Change (ids : List Uuid) (live : List PeerPublicDevice) : List PeerPublicDevice → Prop
  | rotate {live' : List PeerPublicDevice} (id : Uuid)
    (h : live'.Perm (live.map (rotated sign id))) : Change ids live live'
  | add {live' : List PeerPublicDevice} (d : PeerPublicDevice) (v : Nat) (hnew : d.deviceId ∉ ids)
    (hd : SignedAt sign d v) (h : live'.Perm (d :: live)) : Change ids live live'
  | revoke {live' : List PeerPublicDevice} (id : Uuid)
    (h : live'.Perm (live.filter (·.deviceId ≠ id))) : Change ids live live'

/-- The log of an honest account, one record for each change. -/
inductive Grown : List Landed → Prop
  | first {l : Landed} (h : Listed sign l.live) : Grown [l]
  | change {log : List Landed} {last l : Landed} (h : Grown (log ++ [last]))
    (hc : Change sign (used (log ++ [last])) last.live l.live) : Grown (log ++ [last] ++ [l])

/-- The same device, some rotations later. -/
structure RotatedFrom (old d : PeerPublicDevice) : Prop where
  id : old.deviceId = d.deviceId
  registration : old.registrationId = d.registrationId
  identity : old.identityPublic = d.identityPublic
  versions : ∃ v w, v ≤ w ∧ SignedAt sign old v ∧ SignedAt sign d w

variable {sign} {ids : List Uuid} {live live' : List PeerPublicDevice} {d d' : PeerPublicDevice}

theorem RotatedFrom.refl {v : Nat} (h : SignedAt sign d v) : RotatedFrom sign d d :=
  ⟨rfl, rfl, rfl, v, v, le_rfl, h, h⟩

theorem SignedAt.unique {v w : Nat} (h : SignedAt sign d v) (h' : SignedAt sign d w) : v = w := by
  have := h.1.symm.trans h'.1
  simpa using this

variable {old : PeerPublicDevice}

theorem RotatedFrom.trans (h : RotatedFrom sign old d)
    (h' : RotatedFrom sign d d') : RotatedFrom sign old d' := by
  obtain ⟨v, w, hvw, hold, hd⟩ := h.versions
  obtain ⟨w', x, hwx, hd', hx⟩ := h'.versions
  cases hd.unique hd'
  exact ⟨h.id.trans h'.id, h.registration.trans h'.registration, h.identity.trans h'.identity,
    v, x, by omega, hold, hx⟩

theorem rotated_deviceId (id : Uuid) (d : PeerPublicDevice) :
    (rotated sign id d).deviceId = d.deviceId := by
  unfold rotated
  split <;> rfl

theorem rotated_from {v : Nat} (id : Uuid) (h : SignedAt sign d v) :
    RotatedFrom sign d (rotated sign id d) := by
  unfold rotated
  split
  · next hid =>
    refine ⟨rfl, rfl, rfl, v, v + 1, by omega, h, ?_⟩
    simp [SignedAt, h.1, hid]
  · exact .refl h

theorem Change.listed (hc : Change sign ids live live') (h : Listed sign live)
    (hids : ∀ d ∈ live, d.deviceId ∈ ids) : Listed sign live' := by
  cases hc with
  | rotate id hperm =>
    have hmap : ((live.map (rotated sign id)).map (·.deviceId)) = live.map (·.deviceId) := by
      simp [rotated_deviceId]
    refine ⟨(hperm.map _).nodup_iff.mpr (hmap ▸ h.distinct), fun d hd => ?_⟩
    obtain ⟨d₀, hd₀, rfl⟩ := List.mem_map.mp (hperm.mem_iff.mp hd)
    obtain ⟨v, hv⟩ := h.signed d₀ hd₀
    obtain ⟨_, w, _, _, hw⟩ := (rotated_from id hv).versions
    exact ⟨w, hw⟩
  | add d v hnew hd hperm =>
    refine ⟨(hperm.map _).nodup_iff.mpr (List.nodup_cons.mpr ⟨fun hmem => ?_, h.distinct⟩), ?_⟩
    · obtain ⟨d₀, hd₀, hid⟩ := List.mem_map.mp hmem
      exact hnew (Eq.mp (congrArg (· ∈ ids) hid) (hids d₀ hd₀))
    · intro d' hd'
      rcases List.mem_cons.mp (hperm.mem_iff.mp hd') with rfl | hd'
      · exact ⟨v, hd⟩
      · exact h.signed d' hd'
  | revoke id hperm =>
    refine ⟨(hperm.map _).nodup_iff.mpr (h.distinct.sublist ((List.filter_sublist).map _)), ?_⟩
    intro d hd
    exact h.signed d (List.mem_of_mem_filter (hperm.mem_iff.mp hd))

theorem Change.origin (hc : Change sign ids live live') (h : Listed sign live) (hd : d ∈ live') :
    (∃ d₀ ∈ live, RotatedFrom sign d₀ d) ∨ d.deviceId ∉ ids := by
  cases hc with
  | rotate id hperm =>
    obtain ⟨d₀, hd₀, rfl⟩ := List.mem_map.mp (hperm.mem_iff.mp hd)
    obtain ⟨v, hv⟩ := h.signed d₀ hd₀
    exact .inl ⟨d₀, hd₀, rotated_from id hv⟩
  | add d' v hnew hd' hperm =>
    rcases List.mem_cons.mp (hperm.mem_iff.mp hd) with rfl | hd
    · exact .inr hnew
    · obtain ⟨v, hv⟩ := h.signed d hd
      exact .inl ⟨d, hd, .refl hv⟩
  | revoke id hperm =>
    have hd := List.mem_of_mem_filter (hperm.mem_iff.mp hd)
    obtain ⟨v, hv⟩ := h.signed d hd
    exact .inl ⟨d, hd, .refl hv⟩

theorem Listed.eq_of_deviceId (h : Listed sign live) (hd : d ∈ live) (hd' : d' ∈ live)
    (hid : d.deviceId = d'.deviceId) : d = d' :=
  List.inj_on_of_nodup_map h.distinct hd hd' hid

variable {log : List Landed}

@[simp] theorem liveSet_concat (log : List Landed) (l : Landed) : liveSet (log ++ [l]) = l.live :=
    by
  simp [liveSet]

variable {n : Nat} {l : Landed}

theorem mem_used (hl : log[n]? = some l) (hd : d ∈ l.live) : d.deviceId ∈ used log :=
  List.mem_flatMap.mpr ⟨l, List.mem_of_getElem? hl, List.mem_map_of_mem hd⟩

theorem Grown.listed (h : Grown sign log) : Listed sign (liveSet log) := by
  induction h with
  | first h => exact h
  | change h hc ih =>
    rw [liveSet_concat] at ih ⊢
    exact hc.listed ih fun d hd => mem_used (List.getElem?_concat_length ..) hd

theorem Grown.take_listed (h : Grown sign log) (hl : log[n]? = some l) : Listed sign l.live := by
  induction h with
  | first h =>
    obtain ⟨_, rfl⟩ : n = 0 ∧ _ = l := by
      simpa [List.getElem?_singleton] using hl
    exact h
  | @change log last l' hgrown hc ih =>
    rcases Nat.lt_or_ge n (log ++ [last]).length with hlt | hge
    · rw [List.getElem?_append_left hlt] at hl
      exact ih hl
    · rw [List.getElem?_append_right hge, List.getElem?_singleton] at hl
      obtain ⟨_, rfl⟩ := Option.ite_none_right_eq_some.mp hl |>.imp id Option.some.inj
      exact liveSet_concat (log ++ [last]) l' ▸ (hgrown.change hc).listed

theorem Grown.rotatedFrom (h : Grown sign log) (hl : log[n]? = some l)
    (hold : old ∈ l.live) (hd : d ∈ liveSet log)
    (hid : old.deviceId = d.deviceId) : RotatedFrom sign old d := by
  induction h generalizing d with
  | first hlisted =>
    obtain ⟨_, rfl⟩ : n = 0 ∧ _ = l := by
      simpa [List.getElem?_singleton] using hl
    obtain ⟨v, hv⟩ := hlisted.signed old hold
    rw [← hlisted.eq_of_deviceId hold hd hid]
    exact .refl hv
  | @change log last l' hgrown hc ih =>
    have hlisted : Listed sign last.live := by
      simpa using hgrown.listed
    rw [liveSet_concat] at hd ih
    rcases Nat.lt_or_ge n (log ++ [last]).length with hlt | hge
    · -- an older record: the device was live before the change, and there the induction applies
      rw [List.getElem?_append_left hlt] at hl
      rcases hc.origin hlisted hd with ⟨d₀, hd₀, hfrom⟩ | hnew
      · exact (ih hl hd₀ (hid.trans hfrom.id.symm)).trans hfrom
      · exact absurd (hid ▸ mem_used hl hold) hnew
    · rw [List.getElem?_append_right hge, List.getElem?_singleton] at hl
      obtain ⟨_, rfl⟩ := Option.ite_none_right_eq_some.mp hl |>.imp id Option.some.inj
      have hlisted' := hc.listed hlisted fun d hd =>
        mem_used (List.getElem?_concat_length ..) hd
      obtain ⟨v, hv⟩ := hlisted'.signed old hold
      rw [← hlisted'.eq_of_deviceId hold hd hid]
      exact .refl hv

end History

/-! ## The transition rule -/

section Transition

/-- No device of both lists is more than one version ahead. -/
def Within (old live : List PeerPublicDevice) : Prop :=
  ∀ d ∈ live, ∀ d₀ ∈ old, d₀.deviceId = d.deviceId →
    d.bundleVersion.getD 0 ≤ d₀.bundleVersion.getD 0 + 1

variable {sign : Uuid → Nat → Bytes} {cached live : List PeerPublicDevice}

theorem isValidDeviceTransition_iff (hsign : ∀ id, Function.Injective (sign id))
    (hcached : (cached.map (·.deviceId)).Nodup)
    (hfrom : ∀ d₀ ∈ cached, ∀ d ∈ live, d₀.deviceId = d.deviceId → RotatedFrom sign d₀ d) :
    isValidDeviceTransition cached live = true ↔ Within cached live := by
  rw [isValidDeviceTransition, List.all_eq_true]
  refine forall₂_congr fun d hd => ?_
  cases hfind : cached.find? (·.deviceId = d.deviceId) with
  | none =>
    have hnone := List.find?_eq_none.mp hfind
    simp only [true_iff]
    intro d₀ hd₀ hid
    exact absurd (decide_eq_true hid) (hnone d₀ hd₀)
  | some old =>
    have hold := List.mem_of_find?_eq_some hfind
    have hid : old.deviceId = d.deviceId := by
      simpa using List.find?_some hfind
    have honly : ∀ d₀ ∈ cached, d₀.deviceId = d.deviceId → d₀ = old := fun d₀ hd₀ h =>
      List.inj_on_of_nodup_map hcached hd₀ hold (h.trans hid.symm)
    obtain ⟨v, w, hvw, hv, hw⟩ := (hfrom old hold d hd hid).versions
    have hsignature : old.crossSignature = d.crossSignature ↔ v = w := by
      rw [hv.2, hw.2, hid, Option.some_inj, (hsign _).eq_iff]
    have hversion : old.bundleVersion = d.bundleVersion ↔ v = w := by
      rw [hv.1, hw.1, Option.some_inj]
    have hone : (∀ d₀ ∈ cached, d₀.deviceId = d.deviceId →
        d.bundleVersion.getD 0 ≤ d₀.bundleVersion.getD 0 + 1) ↔ w ≤ v + 1 := by
      refine ⟨fun h => ?_, fun h d₀ hd₀ hid₀ => ?_⟩
      · simpa [hv.1, hw.1] using h old hold hid
      · simpa [honly d₀ hd₀ hid₀, hv.1, hw.1] using h
    rw [hone]
    have hsame := hfrom old hold d hd hid
    by_cases he : v = w
    · simp [hsame.registration, hsame.identity, hsignature.mpr he, hversion.mpr he, he]
    · simp [hsame.registration, hsame.identity, mt hsignature.mp he, he, hv.1, hw.1]
      omega

theorem sortDevices_perm (devices : List PeerPublicDevice) : (sortDevices devices).Perm devices :=
  List.perm_insertionSort _ _

theorem sameDevices_of_perm (h : cached.Perm live) (hlive : (live.map (·.deviceId)).Nodup) :
    sameDevices cached live = true := by
  have hsorted : ∀ devices, (sortDevices devices).Pairwise
      fun a b => a.deviceId.bytes ≤ b.deviceId.bytes := fun devices =>
    List.pairwise_insertionSort _ devices
  rw [sameDevices, decide_eq_true_iff]
  refine List.Perm.eq_of_pairwise ?_ (hsorted _) (hsorted _)
    ((sortDevices_perm cached).trans (h.trans (sortDevices_perm live).symm))
  intro a b ha hb hab hba
  have ha' := h.mem_iff.mp ((sortDevices_perm cached).mem_iff.mp ha)
  have hb' : b ∈ live := (sortDevices_perm live).mem_iff.mp hb
  exact List.inj_on_of_nodup_map hlive ha' hb' (Block.ext (List.le_antisymm hab hba))

end Transition

variable {pages : Nat}

/-! ## A quiet run -/

section Quiet

variable (X : Ctx) (peer : Peer)

/-- The honest server, and whatever the other peers make of the global gate. -/
def gatedAnswer (gate : Bool) : (c : Call) → Seen → Answer c × Seen
  | .hasAnyDeviceLogFork, s => (.ok gate, s)
  | c, s => honestAnswer peer c s

/-- The keys of the account verify, the own account's are the local ones, and they can be attested. -/
structure Genuine : Prop where
  verifies : X.crypto.verifyIdentity peer.identity = .ok ()
  own : ownIdentityDiffers X peer.identity = false
  attests : ∃ attestation, X.crypto.attestPeerMaster peer.identity.masterPublic = .ok attestation

/-- The rows are those of the account when `n` was its head. The state of the record is any. -/
structure Snapshot (log : List Landed) (n : Nat) (l : Landed) (r : ContactTrustRecord)
    (store : ContactStore) : Prop where
  landed : log[n]? = some l
  devices : store.devices.Perm l.live
  trust : store.trust = some r
  identity : ∀ i, r.identity = some i → i = peer.identity
  confirmed : ∀ m, r.confirmedMasterPublic = some m → m = peer.identity.masterPublic
  head : r.logHeadSequence = some n
  hash : r.logHeadHash = some (X.crypto.recordHash l.blob)
  etag : ∀ tag, r.etag = some tag → tag = peer.devicesTag (log.take (n + 1))

/-- The call succeeds and leaves the present device list. -/
def Reaches (gate : Bool) (pages : Nat) (log : List Landed) (store : ContactStore) (entry : Entry) :
    Prop :=
  ∃ trust s, (entry.process X pages).run (gatedAnswer peer gate) ⟨log, store⟩ = (.ok trust, s) ∧
    s.store.devices.Perm (liveSet log)

variable {X peer} {gate : Bool} {log : List Landed} {store : ContactStore} {n : Nat} {l : Landed}
  {r : ContactTrustRecord} {advertised : Nat}

theorem readPages_run (gate : Bool) (store : ContactStore) (hlinked : Linked X peer log)
    {devices : List PeerPublicDevice} (hhead : headOf log = some advertised)
    (hcovered : ∀ l, log[advertised]? = some l → devices = l.live) (pages : Nat)
    {previous : Option ContactTrustRecord} {cursor : LogCursor} (h : At X previous log cursor)
    (hpages : log.length < cursor.expectedSequence + pages) : ∃ cursor',
    (readPages X previous peer.identity devices advertised pages cursor).run (gatedAnswer peer gate)
      ⟨log, store⟩ = (.ok cursor', ⟨log, store⟩) ∧ cursor'.after = some advertised := by
  induction pages generalizing cursor with
  | zero =>
    have := h.within
    omega
  | succ pages ih =>
    obtain ⟨cursor', hrun, hat, hmore, hlast⟩ := readPages_page hlinked hhead hcovered h rfl
      (readPages X previous peer.identity devices advertised pages)
    have hstep := congrArg (Proc.run (gatedAnswer peer gate) · ⟨log, store⟩) hrun
    change (readPages X previous peer.identity devices advertised (pages + 1) cursor).run
      (gatedAnswer peer gate) ⟨log, store⟩ = _ at hstep
    rw [hstep]
    split
    · next hm =>
      have := hmore hm
      exact ih hat (by omega)
    · next hm => exact ⟨cursor', rfl, hlast (Bool.eq_false_iff.mpr hm)⟩

/-- What `refreshDevices` was given: the present list, or the stored one while nothing changed. -/
structure Current (log : List Landed) (n : Nat) (read : DeviceRead) : Prop where
  devices : read.devices.Perm (liveSet log)
  head : read.advertisedHead = headOf log
  changed : read.listChanged = true → headOf log ≠ some n
  exact : headOf log = some n ∨ read.devices = liveSet log

variable {sign : Uuid → Nat → Bytes} {read : DeviceRead}

theorem readLog_run (gate : Bool) (hlinked : Linked X peer log)
    (hsnap : Snapshot X peer log n l r store) (hread : Current log n read)
    (hhead : headOf log = some advertised) (hpages : log.length < pages) :
    ∃ cursor, (readLog X (some r) peer.identity read.devices advertised pages).run
      (gatedAnswer peer gate) ⟨log, store⟩ = (.ok cursor, ⟨log, store⟩) := by
  have hstart : (LogCursor.start (some r)).after = some n := hsnap.head
  unfold readLog
  simp only
  split
  · next hall =>
    have hlt : n < advertised := by
      simpa [hstart] using hall
    have hdevices := hread.exact.resolve_left fun h => by
      have := Option.some.inj (h.symm.trans hhead)
      omega
    have hat : At X (some r) log (LogCursor.start (some r)) := by
      refine ⟨rfl, ?_, ?_, Or.inl ⟨rfl, rfl⟩⟩
      · have := (List.getElem?_eq_some_iff.mp hsnap.landed).1
        simp only [LogCursor.start, Option.bind_some, hsnap.head, Option.elim_some]
        omega
      · simp only [LogCursor.start, Option.bind_some, hsnap.head, hsnap.hash, Option.elim_some,
          Option.getD_some, linkOf_take_succ hsnap.landed]
    obtain ⟨cursor, hrun, hafter⟩ := readPages_run gate store hlinked hhead
      (fun l' hl' => hdevices.trans (liveSet_eq hl' hhead)) pages hat (by omega)
    refine ⟨cursor, ?_⟩
    rw [Proc.run_bind, hrun]
    simp [hafter]
  · exact ⟨_, rfl⟩

/-- The condition under which the account is read again. -/
def Readable (log : List Landed) (l : Landed) : Prop := liveSet log ≠ [] ∧ Within l.live (liveSet log)

/-- A refresh that ends with the present list, or with a failure. -/
def RefreshEnds (peer : Peer) (log : List Landed) (l : Landed)
    (result : Except Failure AuthenticatedPeer × Seen) : Prop :=
  (Readable log l ∧ ∃ p s, result = (.ok p, s) ∧ p.trust.identity = some peer.identity ∧
    s.store.devices.Perm (liveSet log)) ∨ (¬ Readable log l ∧ ∃ e s, result = (.error e, s))

theorem refreshDevices_run (hsign : ∀ id, Function.Injective (sign id)) (hgrown : Grown sign log)
    (hlinked : Linked X peer log) (hsnap : Snapshot X peer log n l r store)
    (hread : Current log n read) (hpages : log.length < pages)
    (allow : Bool) (tag : Option String) :
    RefreshEnds peer log l ((refreshDevices X ⟨false, none, allow, none⟩ (some r) pages peer.identity tag
      (sortDevices store.devices) read).run (gatedAnswer peer gate) ⟨log, store⟩) := by
  have hlt : n < log.length := (List.getElem?_eq_some_iff.mp hsnap.landed).1
  obtain ⟨advertised, hadvertised⟩ : ∃ m, log.length = m + 1 := ⟨log.length - 1, by omega⟩
  have hhead := headOf_eq_some.mpr hadvertised
  have hlisted := hgrown.listed
  have hstored : (sortDevices store.devices).Perm l.live := (sortDevices_perm _).trans hsnap.devices
  have hfrom : ∀ d₀ ∈ sortDevices store.devices, ∀ d ∈ read.devices, d₀.deviceId = d.deviceId →
      RotatedFrom sign d₀ d := fun d₀ hd₀ d hd =>
    hgrown.rotatedFrom hsnap.landed (hstored.mem_iff.mp hd₀) (hread.devices.mem_iff.mp hd)
  have hold : ((sortDevices store.devices).map (·.deviceId)).Nodup :=
    (hstored.map _).nodup_iff.mpr (hgrown.take_listed hsnap.landed).distinct
  have hvalid : isValidDeviceTransition (sortDevices store.devices) read.devices = true ↔
      Within l.live (liveSet log) :=
    (isValidDeviceTransition_iff hsign hold hfrom).trans
      (by simp only [Within, hstored.mem_iff, hread.devices.mem_iff])
  have hsigned : read.devices.any (·.isUnsigned) = false := by
    rw [List.any_eq_false]
    intro d hd
    obtain ⟨v, hv⟩ := hlisted.signed d (hread.devices.mem_iff.mp hd)
    simp [PeerPublicDevice.isUnsigned, hv.2]
  unfold refreshDevices
  by_cases hempty : liveSet log = []
  · have : read.devices = [] := (hempty ▸ hread.devices).eq_nil
    rw [if_pos (Or.inl this)]
    exact Or.inr ⟨fun h => h.1 hempty, _, _, rfl⟩
  have hnonempty : ¬ (read.devices = [] ∨ read.devices.any (·.isUnsigned) = true) := by
    rw [hsigned]
    rintro (h | h)
    · exact hempty (h ▸ hread.devices.symm).eq_nil
    · cases h
  rw [if_neg hnonempty, hread.head, hhead]
  have hbehind : ((some r).bind (·.logHeadSequence)).any (advertised < ·) = false := by
    simp [hsnap.head]
    omega
  have hunchanged : ¬ (read.listChanged = true ∧
      some advertised = (some r).bind (·.logHeadSequence)) := fun ⟨hc, he⟩ =>
    hread.changed hc (hhead.trans (he.trans hsnap.head))
  simp only [hbehind, Bool.false_eq_true, if_false]
  by_cases hwithin : Within l.live (liveSet log)
  · obtain ⟨cursor, hcursor⟩ := readLog_run gate hlinked hsnap hread hhead hpages
    rw [if_neg (by rw [hvalid.mpr hwithin]; decide), if_neg hunchanged, Proc.run_bind, hcursor]
    exact Or.inl ⟨⟨hempty, hwithin⟩, _, _, rfl, rfl, hread.devices⟩
  · rw [if_pos (Bool.eq_false_iff.mpr (mt hvalid.mp hwithin))]
    exact Or.inr ⟨fun h => hwithin h.2, _, _, rfl⟩

theorem deviceReadOf_current (hgrown : Grown sign log)
    (htags : ∀ m, peer.devicesTag (log.take m) = peer.devicesTag log → log.take m = log)
    (hsnap : Snapshot X peer log n l r store) {tag : Option String}
    (htag : ∀ t, tag = some t → r.etag = some t) :
    Current log n (deviceReadOf (some r) (sortDevices store.devices)
      (if tag = some (peer.devicesTag log) then .notModified
        else .updated (liveSet log) (peer.devicesTag log) (headOf log))) := by
  have hstored : (sortDevices store.devices).Perm l.live := (sortDevices_perm _).trans hsnap.devices
  split
  · next h =>
    -- the tag names the whole log, so nothing was appended since the snapshot
    have hsame := htags _ (hsnap.etag _ (htag _ h)).symm
    have hlt : n < log.length := (List.getElem?_eq_some_iff.mp hsnap.landed).1
    have hhead : headOf log = some n := by
      have := congrArg List.length hsame
      rw [List.length_take] at this
      exact headOf_eq_some.mpr (by omega)
    refine ⟨?_, ?_, fun h => ?_, Or.inl hhead⟩
    · rw [liveSet_eq hsnap.landed hhead]
      exact hstored
    · exact hsnap.head.trans hhead.symm
    · cases h
  · refine ⟨.refl _, rfl, fun hchanged hhead => ?_, Or.inr rfl⟩
    rw [liveSet_eq hsnap.landed hhead] at hchanged
    have := sameDevices_of_perm hstored (hgrown.take_listed hsnap.landed).distinct
    simp [deviceReadOf, this] at hchanged

theorem identityOf_present (hsnap : Snapshot X peer log n l r store) : ∃ tag,
    identityOf (some r) (.ok (if sentTag (some r) (·.identityEtag) = some peer.identityTag
      then .notModified else .updated peer.identity peer.identityTag)) =
        .ok (peer.identity, tag) := by
  split
  · next h =>
    have hidentity : r.identity ≠ none := by
      intro hnone
      simp [sentTag, hnone] at h
    obtain ⟨i, hi⟩ := Option.ne_none_iff_exists'.mp hidentity
    obtain rfl := hsnap.identity i hi
    exact ⟨some peer.identityTag, by simp [identityOf, h, hi]⟩
  · exact ⟨_, rfl⟩

structure QuietRefresh (X : Ctx) (peer : Peer) (sign : Uuid → Nat → Bytes) (log : List Landed) :
    Prop where
  genuine : Genuine X peer
  signatures : ∀ id, Function.Injective (sign id)
  grown : Grown sign log
  linked : Linked X peer log
  tags : ∀ m, peer.devicesTag (log.take m) = peer.devicesTag log → log.take m = log

theorem refreshIdentity_run (gate : Bool) (h : QuietRefresh X peer sign log)
    (hsnap : Snapshot X peer log n l r store) (hpages : log.length < pages)
    (allow : Bool) (tag : Option String) :
    RefreshEnds peer log l ((refreshIdentity X ⟨false, none, allow, none⟩ (some r) pages peer.identity
      tag).run (gatedAnswer peer gate) ⟨log, store⟩) := by
  have hconfirmed : ¬ r.confirmedMasterPublic.any (· ≠ peer.identity.masterPublic) = true := by
    cases hm : r.confirmedMasterPublic with
    | none => simp
    | some m => simp [hsnap.confirmed m hm]
  unfold refreshIdentity
  rw [h.genuine.verifies]
  simp only [h.genuine.own, Bool.false_eq_true, if_false, Option.filter_some, hconfirmed, false_and,
    decide_false]
  refine refreshDevices_run h.signatures h.grown h.linked hsnap
    (deviceReadOf_current h.grown h.tags hsnap fun t ht => ?_) hpages allow tag
  split at ht
  · cases ht
  · exact ht

theorem refresh_run (gate : Bool) (h : QuietRefresh X peer sign log)
    (hsnap : Snapshot X peer log n l r store) (hpages : log.length < pages)
    (allow : Bool) :
    RefreshEnds peer log l ((refresh X ⟨false, none, allow, none⟩ pages).run (gatedAnswer peer gate)
      ⟨log, store⟩) := by
  obtain ⟨tag, htag⟩ := identityOf_present hsnap
  have hrun : (refresh X ⟨false, none, allow, none⟩ pages).run (gatedAnswer peer gate)
      ⟨log, store⟩ = (refreshRead X ⟨false, none, allow, none⟩ store.trust pages
        (identityOf store.trust (.ok (if sentTag store.trust (·.identityEtag) = some peer.identityTag
          then .notModified else .updated peer.identity peer.identityTag)))).run
        (gatedAnswer peer gate) ⟨log, store⟩ := rfl
  rw [hrun, hsnap.trust, htag]
  exact refreshIdentity_run gate h hsnap hpages allow tag

end Quiet

/-- **A peer is reached again if and only if it has a live device and none of its devices is more
than one version ahead** of the list this client holds: its rows are an honest snapshot of the
account, the account has gone on in any number of changes, the server is honest and nothing changes
during the call. The bound of pages only has to allow for the log. -/
theorem reached_again_iff (X : Ctx) (peer : Peer) (sign : Uuid → Nat → Bytes) {log : List Landed}
    (h : QuietRefresh X peer sign log) {n : Nat} {l : Landed} {r : ContactTrustRecord}
    {store : ContactStore} (hsnap : Snapshot X peer log n l r store) (gate : Bool)
    (hpages : log.length < pages) :
    (Reaches X peer gate pages log store .resolveLiveDevices ∨
      Reaches X peer gate pages log store (.confirmOutOfBand peer.identity.masterPublic)) ↔
    liveSet log ≠ [] ∧ Within l.live (liveSet log) := by
  constructor
  · rintro (⟨trust, s, hrun, _⟩ | ⟨trust, s, hrun, _⟩)
    · rcases refresh_run gate h hsnap hpages false with ⟨hreadable, _⟩ | ⟨_, e, s', herror⟩
      · exact hreadable
      · -- the gate is passed or not: the refresh behind it fails
        exfalso
        have hgate : forkGate.run (gatedAnswer peer gate) ⟨log, store⟩ =
            (if gate = false then .ok () else .error .policyBlocked, ⟨log, store⟩) := by
          cases gate <;> rfl
        rw [Entry.process, Proc.run_bind, hgate] at hrun
        cases gate with
        | true => simp at hrun
        | false => simp [Proc.run_bind, herror] at hrun
    · rcases refresh_run gate h hsnap hpages true with ⟨hreadable, _⟩ | ⟨_, e, s', herror⟩
      · exact hreadable
      · rw [Entry.process, confirmOutOfBand, Proc.run_bind, herror] at hrun
        simp at hrun
  · intro hreadable
    right
    rcases refresh_run gate h hsnap hpages true with ⟨_, p, s, hrun, hidentity, hdevices⟩ | ⟨hnot, _⟩
    · obtain ⟨attestation, hattests⟩ := h.genuine.attests
      have hconfirm : (confirmRefreshed X peer.identity.masterPublic p) =
          writeConfirmed (confirmedRecord p peer.identity attestation) := by
        rw [confirmRefreshed, hidentity]
        simp only [hattests, Proc.ofExcept_ok_bind, Proc.check_bind_of]
      refine ⟨confirmedRecord p peer.identity attestation, { s with
        store.trust := some (confirmedRecord p peer.identity attestation) }, ?_, hdevices⟩
      rw [Entry.process, confirmOutOfBand, Proc.run_bind, hrun]
      simp only [hconfirm]
      rfl
    · exact absurd hreadable hnot

/-! ## The phone rotates -/

section Phone

def phoneSign (_ : Uuid) (v : Nat) : Bytes := List.replicate v 0

def phoneAt (v : Nat) : PeerPublicDevice :=
  { phone with bundleVersion := some v, crossSignature := some (phoneSign phone.deviceId v) }

def phoneLanded (i : Nat) : Landed := ⟨List.replicate i 0, [phoneAt (i + 1)]⟩

def phoneLog (k : Nat) : List Landed := (List.range k).map phoneLanded

variable (k : Nat)

theorem phoneLog_grown : Grown phoneSign (phoneLog (k + 1)) := by
  induction k with
  | zero =>
    refine .first ⟨by decide, fun d hd => ?_⟩
    rw [List.mem_singleton.mp hd]
    exact ⟨1, rfl, rfl⟩
  | succ k ih =>
    have hsplit : phoneLog (k + 1 + 1) = phoneLog k ++ [phoneLanded k] ++ [phoneLanded (k + 1)] := by
      simp [phoneLog, List.range_succ]
    have hbefore : phoneLog (k + 1) = phoneLog k ++ [phoneLanded k] := by
      simp [phoneLog, List.range_succ]
    rw [hsplit]
    refine .change (hbefore ▸ ih) (.rotate phone.deviceId ?_)
    rfl

theorem phoneLog_linked : Linked lengthCtx lengthPeer (phoneLog k) := by
  intro n l hl
  obtain ⟨i, hi, rfl⟩ := List.getElem?_map .. ▸ hl |> Option.map_eq_some_iff.mp
  obtain ⟨hlt, rfl⟩ := List.getElem?_eq_some_iff.mp hi
  rw [List.length_range] at hlt
  have hlen : ((phoneLog k).take n).length = n := by
    simp [phoneLog]
    omega
  have := lengthCtx_covers ((phoneLog k).take n) [phoneAt (n + 1)]
  rw [hlen] at this
  simpa [phoneLanded] using this

theorem phone_quiet (htags : ∀ m, lengthPeer.devicesTag ((phoneLog (k + 1)).take m) =
      lengthPeer.devicesTag (phoneLog (k + 1)) → (phoneLog (k + 1)).take m = phoneLog (k + 1)) :
    QuietRefresh lengthCtx lengthPeer phoneSign (phoneLog (k + 1)) where
  genuine := ⟨rfl, rfl, _, rfl⟩
  signatures _ v w h := by
    have := congrArg List.length h
    simpa [phoneSign] using this
  grown := phoneLog_grown k
  linked := phoneLog_linked _
  tags := htags

def firstTrust : ContactTrustRecord where
  state := .unverified
  identity := some lengthPeer.identity
  confirmedMasterPublic := none
  attestation := none
  etag := some (lengthPeer.devicesTag (phoneLog 1))
  peerStateEtag := none
  identityEtag := some lengthPeer.identityTag
  logHeadSequence := some 0
  logHeadHash := some (List.replicate 32 0)

def firstRows : ContactStore := ⟨some firstTrust, [phoneAt 1], []⟩

theorem firstRows_snapshot : Snapshot lengthCtx lengthPeer (phoneLog (k + 1)) 0
    (phoneLanded 0) firstTrust firstRows where
  landed := by
    simp [phoneLog]
  devices := .refl _
  trust := rfl
  identity _ h := (Option.some.inj h).symm
  confirmed _ h := by cases h
  head := rfl
  hash := rfl
  etag tag h := by
    rw [← Option.some.inj h]
    simp [phoneLog, List.range_succ_eq_map]

end Phone

/-- One missed rotation. -/
theorem reached_again_iff_one_rotation : Within [phoneAt 1] [phoneAt 2] ∧
    (Reaches lengthCtx lengthPeer false 3 (phoneLog 2) firstRows .resolveLiveDevices ∨
      Reaches lengthCtx lengthPeer false 3 (phoneLog 2) firstRows
        (.confirmOutOfBand lengthPeer.identity.masterPublic)) := by
  have hwithin : Within [phoneAt 1] [phoneAt 2] := by
    intro d hd d₀ hd₀ _
    rw [List.mem_singleton.mp hd, List.mem_singleton.mp hd₀]
    decide
  refine ⟨hwithin, (reached_again_iff lengthCtx lengthPeer phoneSign (phone_quiet 1 fun m => ?_)
    (firstRows_snapshot 1) false (by decide)).mpr ⟨by decide, hwithin⟩⟩
  match m with
  | 0 | 1 => decide
  | m + 2 => exact fun _ => List.take_of_length_le (by simp [phoneLog])

/-- Two missed rotations of the phone: neither call reaches it again. -/
theorem two_missed_rotations : QuietRefresh lengthCtx lengthPeer phoneSign (phoneLog 3) ∧
    Snapshot lengthCtx lengthPeer (phoneLog 3) 0 (phoneLanded 0) firstTrust firstRows ∧
    liveSet (phoneLog 3) = [phoneAt 3] ∧
    ¬ Reaches lengthCtx lengthPeer false 4 (phoneLog 3) firstRows .resolveLiveDevices ∧
    ¬ Reaches lengthCtx lengthPeer false 4 (phoneLog 3) firstRows
      (.confirmOutOfBand lengthPeer.identity.masterPublic) := by
  refine ⟨phone_quiet 2 fun m => ?_, firstRows_snapshot 2, rfl, ?_, ?_⟩
  · match m with
    | 0 | 1 | 2 => decide
    | m + 3 => exact fun _ => List.take_of_length_le (by simp [phoneLog])
  · rintro ⟨trust, s, hrun, _⟩
    have hfails : ((Entry.resolveLiveDevices.process lengthCtx 4).run (gatedAnswer lengthPeer false)
      ⟨phoneLog 3, firstRows⟩).1 = .error .unauthenticatedInput := by rfl
    rw [hrun] at hfails
    cases hfails
  · rintro ⟨trust, s, hrun, _⟩
    have hfails : (((Entry.confirmOutOfBand lengthPeer.identity.masterPublic).process lengthCtx
      4).run (gatedAnswer lengthPeer false) ⟨phoneLog 3, firstRows⟩).1 =
        .error .unauthenticatedInput := by rfl
    rw [hrun] at hfails
    cases hfails

end CommPlatform.Contacts
