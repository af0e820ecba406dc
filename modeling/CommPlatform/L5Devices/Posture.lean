import CommPlatform.L5Devices.OwnDeviceLog

/-!
# The fork alarm over a run

Any number of operations of the manager and of the coordinator, their steps
interleaved at every await, with gossip commits between them, against a
server that answers what it likes. The posture is checked at the beginning
of an operation, if at all, and written without a condition at its end; a
pending mutation survives a restart and is finished without a check.
-/
namespace CommPlatform.Devices.Alarm

open CommPlatform.Core Server L4

/-! ## Runs -/

def Forked (s : Option OwnRows) : Prop := ∃ rows, s = some rows ∧ rows.posture = .deviceLogFork

def NonePending (s : Option OwnRows) : Prop := ∀ rows, s = some rows → rows.mutations = []

def Raises (s t : Option OwnRows) : Prop := ¬ Forked s ∧ Forked t

/-- The commit of gossiped heads. `peerMismatch` is whether a head of another account differs from
its stored record. mirrors drift_pairwise_transport_store.dart:868-894 -/
def commitHeadGossip (peerMismatch : Bool) (heads : List (Nat × Bytes)) (rows : OwnRows) : OwnRows :=
  if peerMismatch ∨ heads.any (fun head => rows.logRecords.any fun row =>
      row.sequence = head.1 ∧ row.hash ≠ head.2) then
    { rows with posture := .deviceLogFork }
  else rows

inductive Operation
  | refresh
  | relabel (deviceId : Uuid) (label : String)
  | revoke (today : Nat) (deviceId : Uuid)
  | resumePendingMutation
  | appendLiveSetMutation (kind : DeviceLogMutationKind) (target : Option Uuid)
      (identityVersion today : Nat) (liveDevices : List PublicDevice)
  | verifyCurrentChain

def Operation.process (X : Ctx) : Operation → P Unit
  | .refresh => do
    let _ ← Devices.refresh X
  | .relabel deviceId label => Devices.relabel X deviceId label
  | .revoke today deviceId => Devices.revoke X today deviceId
  | .resumePendingMutation => Devices.resumePendingMutation X
  | .appendLiveSetMutation kind target identityVersion today liveDevices =>
    Devices.appendLiveSetMutation X kind target identityVersion today 2 liveDevices
  | .verifyCurrentChain => do
    let _ ← Devices.verifyCurrentChain X

/-- The posture of rows that are there can be read. -/
def Heeded (s : Option OwnRows) : (c : Call) → c.Answer → Prop
  | .readGlobalSecurityState, a => ∀ rows, s = some rows → a = .ok rows.posture
  | _, _ => True

/-- The operations of one device. With `careful`, the posture can be read and a fork is recorded only
while no mutation is pending. -/
def postureWorld (X : Ctx) (careful : Prop) :
    Proc.World Call Call.Answer Failure Unit (Option OwnRows) where
  init s := ∃ rows, s = some rows ∧ rows.posture = .normal ∧ rows.mutations = []
  env s t := (∃ peerMismatch heads, t = s.map (commitHeadGossip peerMismatch heads)) ∧
    (careful → Raises s t → NonePending s)
  starts p := ∃ op : Operation, p = op.process X
  calls c s a t := storeCalls X.own c s a t ∧
    (careful → Heeded s c a ∧ (Raises s t → NonePending s))

/-! ## Calls -/

section Calls

variable {X : Ctx} {s t : Option OwnRows}

/-- While a process waits, no fork is recorded, and one that is recorded stays. -/
def postureRules (X : Ctx) : Proc.Rules Call Call.Answer (Option OwnRows) where
  calls := (postureWorld X True).calls
  rely s t := (s = none → t = none) ∧ (Forked s → t = none ∨ Forked t) ∧ (¬ Forked s → ¬ Forked t)
  guar s t := (s = none → t = none) ∧ (Forked s → t = none ∨ Forked t)
  inv s := Forked s → NonePending s
  failed _ := True
  rely_refl _ := ⟨id, Or.inr, id⟩
  rely_trans := by
    rintro s t u ⟨hnone, hfork, hcalm⟩ ⟨hnone', hfork', hcalm'⟩
    refine ⟨fun h => hnone' (hnone h), fun h => ?_, fun h => hcalm' (hcalm h)⟩
    rcases hfork h with h | h
    · exact Or.inl (hnone' h)
    · exact hfork' h

/-- A call that writes neither a posture nor a mutation. -/
def neutral : Call → Bool
  | .setGlobalSecurityState _ _ | .writePendingMutation _ => false
  | _ => true

variable {c : Call} {a : c.Answer} {own : LocalIdentity}

/-- What a call may do to the rows: a neutral one keeps the posture and adds no mutation. -/
theorem storeCalls_neutral (hc : neutral c = true)
    (h : storeCalls own c s a t) : t = none ∨ ∃ rows rows', s = some rows ∧ t = some rows' ∧
      rows'.posture = rows.posture ∧ ∀ m ∈ rows'.mutations, m ∈ rows.mutations := by
  have hsame : t = s → t = none ∨ ∃ rows rows', s = some rows ∧ t = some rows' ∧
      rows'.posture = rows.posture ∧ ∀ m ∈ rows'.mutations, m ∈ rows.mutations := by
    rintro rfl
    cases t with
    | none => exact Or.inl rfl
    | some rows => exact Or.inr ⟨rows, rows, rfl, rfl, rfl, fun _ => id⟩
  cases a with
  | error e => exact hsame h
  | ok v =>
    simp only [storeCalls] at h
    split at h
    · exact hsame h
    · obtain ⟨rows, hrows, hkept⟩ := h
      cases c with
      | setGlobalSecurityState | writePendingMutation => cases hc
      | clearPendingMutation op =>
        exact Or.inr ⟨rows, _, hrows, hkept, rfl, fun _ => List.mem_of_mem_filter⟩
      | replaceOwnDevices | updateEncryptedLabel | persistPrepared =>
        exact Or.inr ⟨rows, _, hrows, hkept, rfl, fun _ => id⟩
      | appendAuthenticatedLogRecords =>
        exact Or.inr ⟨rows, _, hrows, hkept.2, rfl, fun _ => id⟩
      | cleanupAfterSelfRevocation => exact Or.inl hkept
      | readPendingMutation | readAuthenticatedLogHead => exact hsame (hkept.1.trans hrows.symm)
      | readLocalIdentity | readGlobalSecurityState | readOwnDevices | readOwnDevicesEtag
      | readPrepared => exact hsame (hkept.2.trans hrows.symm)
      | _ => exact hsame (Eq.trans hkept hrows.symm)

theorem storeCalls_none (h : storeCalls own c none a t) : t = none := by
  cases a with
  | error e => exact h
  | ok v =>
    simp only [storeCalls] at h
    split at h
    · exact h
    · obtain ⟨rows, hrows, _⟩ := h
      cases hrows

def raises : Call → Bool
  | .setGlobalSecurityState .deviceLogFork _ => true
  | _ => false

theorem not_forked_of_posture {rows rows' : OwnRows} (hs : ¬ Forked (some rows))
    (h : rows'.posture = rows.posture) : ¬ Forked (some rows') := by
  rintro ⟨r, hr, hfork⟩
  rw [← Option.some.inj hr] at hfork
  exact hs ⟨rows, rfl, h ▸ hfork⟩

/-- Only the alarm raises the alarm. -/
theorem calls_calm (hc : raises c = false)
    (h : storeCalls X.own c s a t) (hs : ¬ Forked s) : ¬ Forked t := by
  cases hneutral : neutral c with
  | true =>
    rcases storeCalls_neutral hneutral h with rfl | ⟨rows, rows', rfl, rfl, hposture, _⟩
    · rintro ⟨_, h, _⟩
      cases h
    · exact not_forked_of_posture hs hposture
  | false =>
    cases a with
    | error e => rwa [show t = s from h]
    | ok v =>
      cases c with
      | setGlobalSecurityState state evidence =>
        obtain ⟨rows, rfl, rfl⟩ := h
        rintro ⟨r, hr, hfork⟩
        rw [← Option.some.inj hr] at hfork
        rw [show state = .deviceLogFork from hfork] at hc
        cases hc
      | writePendingMutation m =>
        obtain ⟨rows, rfl, rfl⟩ := h
        exact not_forked_of_posture hs rfl
      | _ => cases hneutral

/-- What a call may be made for: it is neutral, or there is no alarm, or it raises it. -/
def Allowed (s : Option OwnRows) (c : Call) : Prop :=
  neutral c = true ∨ ¬ Forked s ∨ raises c = true

theorem calls_keep (hinv : (postureRules X).inv s)
    (h : (postureWorld X True).calls c s a t) (hc : Allowed s c) :
    (postureRules X).inv t ∧ (postureRules X).guar s t := by
  obtain ⟨hstore, hcareful⟩ := h
  obtain ⟨_, hraises⟩ := hcareful trivial
  have hpending : Forked t → NonePending s := fun ht => by
    by_cases hs : Forked s
    · exact hinv hs
    · exact hraises ⟨hs, ht⟩
  have hnone : s = none → t = none := by
    rintro rfl
    exact storeCalls_none hstore
  cases hneutral : neutral c with
  | true =>
    rcases storeCalls_neutral hneutral hstore with rfl | ⟨rows, rows', rfl, rfl, hposture, hmutations⟩
    · refine ⟨fun ⟨_, h, _⟩ => (by cases h), fun _ => rfl, fun _ => Or.inl rfl⟩
    · refine ⟨fun ht r hr => ?_, hnone, fun ⟨r, hr, hfork⟩ => Or.inr ⟨rows', rfl, ?_⟩⟩
      · rw [← Option.some.inj hr]
        refine List.eq_nil_iff_forall_not_mem.mpr fun m hm => ?_
        have := hmutations m hm
        rw [hpending ht rows rfl] at this
        cases this
      · rw [hposture, Option.some.inj hr]
        exact hfork
  | false =>
    cases a with
    | error e =>
      obtain rfl : t = s := hstore
      exact ⟨hinv, hnone, Or.inr⟩
    | ok v =>
      cases c with
      | setGlobalSecurityState state evidence =>
        obtain ⟨rows, rfl, rfl⟩ := hstore
        refine ⟨fun ht r hr => ?_, hnone, fun hs => Or.inr ⟨_, rfl, ?_⟩⟩
        · rw [← Option.some.inj hr]
          exact hpending ht rows rfl
        · rcases hc with hc | hc | hc
          · cases hc
          · exact absurd hs hc
          · cases state with
            | deviceLogFork => rfl
            | normal | pendingDeviceChange => cases hc
      | writePendingMutation m =>
        rcases hc with hc | hc | hc
        · cases hc
        · have ht := calls_calm (X := X) rfl hstore hc
          exact ⟨fun h => absurd h ht, hnone, fun h => absurd h hc⟩
        · cases hc
      | _ => cases hneutral

/-- What is read while the alarm is on: no mutation, and the alarm. -/
def Warns (s : Option OwnRows) : (c : Call) → c.Answer → Prop
  | .readPendingMutation, a => ∀ m, a = .ok (some m) → ¬ Forked s
  | .readGlobalSecurityState, a => Forked s → a = .ok .deviceLogFork
  | _, _ => True

theorem calls_warn (hinv : (postureRules X).inv s)
    (h : (postureWorld X True).calls c s a t) : Warns t c a := by
  obtain ⟨hstore, hcareful⟩ := h
  obtain ⟨hheeded, _⟩ := hcareful trivial
  cases c with
  | readPendingMutation =>
    rintro m rfl ⟨rows', rfl, hfork⟩
    obtain ⟨rows, rfl, htrows, hread⟩ : ∃ rows, s = some rows ∧ _ := hstore
    cases htrows
    rcases hread with ⟨hnone, _⟩ | ⟨m', hm', _⟩
    · cases hnone
    · rw [hinv ⟨_, rfl, hfork⟩ _ rfl] at hm'
      cases hm'
  | readGlobalSecurityState =>
    rintro ⟨rows', rfl, hfork⟩
    cases a with
    | error e =>
      have := hheeded rows' (Eq.symm hstore)
      rw [hfork] at this
      exact this
    | ok state =>
      obtain ⟨rows, rfl, hstate, htrows⟩ : ∃ rows, s = some rows ∧ _ := hstore
      rw [← Option.some.inj htrows] at hstate
      rw [hstate, hfork]
  | _ => trivial

end Calls

/-! ## Operations -/

section Operations

variable {X : Ctx} {α β : Type} {Q : β → Option OwnRows → Prop} {s : Option OwnRows} (c : Call)

/-- A call; `¬ Forked` is kept along it. -/
theorem safe_call (hraises : raises c = false) (hc : Allowed s c) {f : c.Answer → P β}
    (h : ∀ a u, (¬ Forked s → ¬ Forked u) → Warns u c a → (f a).Safe (postureRules X) Q u) :
    ((Proc.call c : P c.Answer) >>= f).Safe (postureRules X) Q s := by
  intro t ⟨_, _, hcalm⟩ hinv a u hcall
  have hallowed := hc.imp id (Or.imp hcalm id)
  obtain ⟨hinv', hguar⟩ := calls_keep hinv hcall hallowed
  exact ⟨hinv', hguar, h a u (fun hs => calls_calm hraises hcall.1 (hcalm hs))
    (calls_warn hinv hcall)⟩

theorem safe_require (hraises : raises c = false) (hc : Allowed s c) {f : c.Carried → P β}
    (h : ∀ v u, (¬ Forked s → ¬ Forked u) → Warns u c (.ok v) → (f v).Safe (postureRules X) Q u) :
    (require c >>= f).Safe (postureRules X) Q s := by
  refine safe_call c hraises hc fun a u hcalm hwarns => ?_
  cases a with
  | error e => trivial
  | ok v => exact h v u hcalm hwarns

theorem alarm_fail_safe (evidence : DeviceLogEvidenceKind) (e : Failure) :
    (alarm evidence >>= fun _ => (.fail e : P β)).Safe (postureRules X) Q s := by
  intro t _ hinv a u hcall
  obtain ⟨hinv', hguar⟩ := calls_keep hinv hcall (Or.inr (Or.inr rfl))
  exact ⟨hinv', hguar, trivial⟩

/-- A process that keeps `¬ Forked`. -/
abbrev Calm (X : Ctx) (p : P α) (s : Option OwnRows) : Prop :=
  p.Safe (postureRules X) (fun _ u => ¬ Forked s → ¬ Forked u) s

variable {p : P α}

theorem Calm.bind {f : α → P β} (h : Calm X p s) (hf : ∀ a u, Calm X (f a) u) :
    Calm X (p >>= f) s := by
  refine Proc.Safe.bind (h.mono fun a u hu => ?_)
  exact (hf a u).mono fun _ _ hw hs => hw (hu hs)

theorem calm_check {p : Prop} [Decidable p] (e : Failure) : Calm X (Proc.check p e) s :=
  Proc.safe_check (fun _ => trivial) fun _ => id

theorem calm_ret (a : α) : Calm X (.ret a) s := id

theorem calm_ofExcept (x : Except Failure α) : Calm X (Proc.ofExcept x) s :=
  Proc.safe_ofExcept (fun _ _ => trivial) fun _ _ => id

theorem calm_call (hraises : raises c = false)
    (hc : neutral c = true) : Calm X (Proc.call c : P c.Answer) s :=
  safe_call c hraises (Or.inl hc) fun _ _ hcalm _ => hcalm

theorem calm_require (hraises : raises c = false)
    (hc : neutral c = true) : Calm X (require c) s := by
  refine (calm_call c hraises hc).bind fun a u => ?_
  cases a with
  | error e => trivial
  | ok v => exact id

/-- A process that is begun while there is no alarm. -/
abbrev Quiet (X : Ctx) (p : P α) (s : Option OwnRows) : Prop :=
  ¬ Forked s → p.Safe (postureRules X) (fun _ u => ¬ Forked u) s

theorem Calm.quiet (h : Calm X p s) : Quiet X p s := fun hs => h.mono fun _ _ hu => hu hs

theorem Quiet.bind {f : α → P β} (h : Quiet X p s) (hf : ∀ a u, Quiet X (f a) u) :
    Quiet X (p >>= f) s := fun hs => Proc.Safe.bind ((h hs).mono fun a u hu => hf a u hu)

theorem quiet_call (hraises : raises c = false) : Quiet X (Proc.call c : P c.Answer) s := fun hs =>
  safe_call c hraises (Or.inr (Or.inl hs)) fun _ _ hcalm _ => hcalm hs

theorem quiet_require (hraises : raises c = false) : Quiet X (require c) s := by
  refine (quiet_call c hraises).bind fun a u => ?_
  cases a with
  | error e => exact fun _ => trivial
  | ok v => exact id

/-! ### Reading and checking -/

variable (v : VerifiedLog)

theorem inspectRecords_calm (records : List (Nat × Bytes)) :
    Calm X (inspectRecords X.log (alarm .invalidRecord) (alarm .nonExtendingHead) .policyBlocked v
      records) s := by
  induction records generalizing v s with
  | nil => exact calm_ret v
  | cons record records ih =>
    refine Calm.bind ?_ fun v u => ih v
    unfold inspectRecord
    split
    · trivial
    · split
      · exact alarm_fail_safe _ _
      · split
        · exact alarm_fail_safe _ _
        · exact calm_ret _

theorem readPages_calm (pages : Nat) (fixedHead : Option Nat) (v : VerifiedLog) :
    Calm X (readPages repository X.log (alarm .invalidRecord) (alarm .nonExtendingHead)
      .policyBlocked pages fixedHead v) s := by
  induction pages generalizing fixedHead v s with
  | zero => trivial
  | succ pages ih =>
    refine (calm_call (.fetchDeviceLog v.headSequence) rfl rfl).bind fun a u => ?_
    refine (calm_ofExcept a).bind fun (page : LogPage) w => ?_
    dsimp only
    split
    · trivial
    · refine (inspectRecords_calm v _).bind fun v' x => ?_
      split
      · exact ih _ v'
      · split
        · trivial
        · exact calm_ret v'

theorem ownVerifiedLog_calm : Calm X (ownVerifiedLog X) s := readPages_calm 50 none _

variable (chain : VerifiedLog)

theorem commitVerifiedChain_calm : Calm X (commitVerifiedChain chain) s := by
  refine (calm_require .readAuthenticatedLogHead rfl rfl).bind fun stored u => ?_
  have hcheck : Calm X (checkStoredHead chain stored) u := by
    unfold checkStoredHead
    split
    · exact calm_ret ()
    · split
      · exact alarm_fail_safe _ _
      · split
        · exact alarm_fail_safe _ _
        · exact calm_ret ()
  refine hcheck.bind fun _ w => ?_
  refine (calm_call (.appendAuthenticatedLogRecords chain.authenticated) rfl rfl).bind fun a x => ?_
  cases a with
  | error e => exact alarm_fail_safe _ _
  | ok _ => exact calm_ret ()

theorem authenticateCurrentLiveSet_calm (current : PublicDeviceList) :
    Calm X (authenticateCurrentLiveSet X chain current) s := by
  unfold authenticateCurrentLiveSet
  split
  · exact alarm_fail_safe _ _
  · split
    · trivial
    · split
      · exact calm_ret ()
      · trivial
      · exact alarm_fail_safe _ _

theorem containsExact_calm (sequence : Nat) (exact : Bytes) :
    Calm X (containsExact sequence exact) s := by
  refine (calm_call (.fetchDeviceLog _) rfl rfl).bind fun a u => ?_
  cases a with
  | error e => exact calm_ret false
  | ok page => exact calm_ret _

theorem checkContainsExact_calm (m : PendingDeviceLogMutation) (e : Failure) :
    Calm X (checkContainsExact m e) s :=
  (containsExact_calm _ _).bind fun _ _ => calm_check e

theorem verifyCurrentChain_calm : Calm X (verifyCurrentChain X) s := by
  refine (calm_require .readLocalIdentity rfl rfl).bind fun own t => ?_
  refine (calm_check _).bind fun _ u => ?_
  refine ownVerifiedLog_calm.bind fun verified w => ?_
  exact (commitVerifiedChain_calm verified).bind fun _ _ => calm_ret _

theorem verifyPublicList_calm (list : PublicDeviceList) : Calm X (verifyPublicList X list) s := by
  refine verifyCurrentChain_calm.bind fun chainHead t => ?_
  refine (calm_check _).bind fun _ u => ?_
  split
  · trivial
  · split
    · exact calm_ret ()
    · trivial
    · exact alarm_fail_safe _ _

theorem authenticateOwnSet_calm (rows : List LinkedDevice) : Calm X (authenticateOwnSet X rows) s :=
    by
  refine (calm_require .fetchPublicDevices rfl rfl).bind fun (list : PublicDeviceList) t => ?_
  refine (calm_check _).bind fun _ u => ?_
  refine (calm_require .readLocalIdentity rfl rfl).bind fun (own : LocalIdentity) w => ?_
  exact (calm_check _).bind fun _ _ => verifyPublicList_calm list

theorem ownDeviceId_calm : Calm X ownDeviceId s := by
  refine (calm_call .readLocalIdentity rfl rfl).bind fun a u => ?_
  match a with
  | .error e => exact calm_ret none
  | .ok (own : LocalIdentity) => exact calm_ret (some own.deviceId)

theorem cleanup_calm {α : Type} (a : α) :
    Calm X (Proc.call Call.cleanupAfterSelfRevocation >>= fun _ => (.ret a : P α)) s :=
  (calm_call .cleanupAfterSelfRevocation rfl rfl).bind fun _ _ => calm_ret a

theorem cleanupIfOwn_calm (removed : Uuid) (current : Option Uuid) :
    Calm X (cleanupIfOwn removed current) s := by
  unfold cleanupIfOwn
  split
  · exact cleanup_calm ()
  · exact calm_ret ()

/-! ### Writing -/

variable {m : PendingDeviceLogMutation}

theorem clearMutation_quiet : Quiet X (clearMutation m) s := by
  refine (quiet_call (.clearPendingMutation m.operationId) rfl).bind fun _ u => ?_
  exact (quiet_call (.setGlobalSecurityState .normal none) rfl).bind fun _ _ => id

theorem finishConfirmedMutation_quiet : Quiet X (finishConfirmedMutation m) s := by
  unfold finishConfirmedMutation
  split
  · exact (quiet_call (.writePendingMutation _) rfl).bind fun _ _ => id
  · exact clearMutation_quiet

theorem confirmMutation_quiet : Quiet X (confirmMutation m) s :=
  (checkContainsExact_calm m _).quiet.bind fun _ _ => finishConfirmedMutation_quiet

theorem appendPrepared_quiet : Quiet X (appendPrepared m) s := by
  refine (quiet_call (.appendDeviceLog _ _) rfl).bind fun a u => ?_
  cases a with
  | error e => exact (checkContainsExact_calm m e).quiet.bind fun _ _ => confirmMutation_quiet
  | ok _ => exact confirmMutation_quiet

theorem resumeVerified_quiet : Quiet X (resumeVerified m v) s := by
  unfold resumeVerified
  split
  · split
    · exact fun _ => trivial
    · exact finishConfirmedMutation_quiet
  · split
    · exact fun _ => trivial
    · exact appendPrepared_quiet

variable {retry : Option (List PublicDevice → P Unit)}

/-- A mutation is pending only while there is no alarm. -/
theorem resumePendingMutation_calm : Calm X (resumePendingMutation X) s := by
  refine safe_require .readPendingMutation rfl (Or.inl rfl) fun pending u hcalm hwarns => ?_
  match pending, hwarns with
  | none, _ => exact hcalm
  | some m, hwarns =>
    have hu := hwarns m rfl
    dsimp only
    split
    · exact hcalm
    · have hrest : Quiet X (require .readLocalIdentity >>= fun _ => ownVerifiedLog X >>= fun v =>
          resumeVerified m v) u :=
        (quiet_require .readLocalIdentity rfl).bind fun _ _ =>
          ownVerifiedLog_calm.quiet.bind fun v _ => resumeVerified_quiet v
      exact (hrest hu).mono fun _ _ hw _ => hw

variable (hretry : ∀ r, retry = some r → ∀ devices u, Quiet X (r devices) u)
include hretry

theorem retryMutation_quiet (e : Failure) : Quiet X (retryMutation retry m e) s := by
  unfold retryMutation
  split
  · next r _ _ =>
    refine (quiet_call .fetchPublicDevices rfl).bind fun a u => ?_
    cases a with
    | error e => exact fun _ => trivial
    | ok latest =>
      dsimp only
      split
      · exact clearMutation_quiet.bind fun _ w => hretry r rfl _ w
      · exact fun _ => trivial
  · exact fun _ => trivial

theorem appendCreated_quiet : Quiet X (appendCreated retry m) s := by
  refine (quiet_require (.writePendingMutation m) rfl).bind fun _ t => ?_
  refine Quiet.bind ((quiet_call (.setGlobalSecurityState .pendingDeviceChange none) rfl).bind
    fun _ _ => id) fun _ u => ?_
  refine (quiet_call (.appendDeviceLog _ _) rfl).bind fun a w => ?_
  cases a with
  | error e =>
    refine (containsExact_calm _ _).quiet.bind fun reconciled x => ?_
    split
    · exact finishConfirmedMutation_quiet
    · exact retryMutation_quiet hretry e
  | ok range =>
    dsimp only
    split
    · exact (checkContainsExact_calm m _).quiet.bind fun _ _ => confirmMutation_quiet
    · exact confirmMutation_quiet

theorem mutateLiveSet_quiet
    (kind : DeviceLogMutationKind) (target : Option Uuid) (identityVersion today : Nat)
    (liveDevices : List PublicDevice) :
    Quiet X (mutateLiveSet X retry kind target identityVersion today liveDevices) s := by
  refine (quiet_require .readLocalIdentity rfl).bind fun (own : LocalIdentity) t => ?_
  refine (calm_check _).quiet.bind fun _ u => ?_
  refine ownVerifiedLog_calm.quiet.bind fun chain w => ?_
  refine (commitVerifiedChain_calm chain).quiet.bind fun _ x => ?_
  refine (quiet_require .fetchPublicDevices rfl).bind fun (current : PublicDeviceList) y => ?_
  refine (authenticateCurrentLiveSet_calm chain current).quiet.bind fun _ z => ?_
  split
  · exact fun _ => trivial
  · cases createMutation X kind target identityVersion today chain _ with
    | error e => exact fun _ => trivial
    | ok prepared => exact appendCreated_quiet hretry

omit hretry

theorem checkPosture_safe : checkPosture.Safe (postureRules X) (fun _ u => ¬ Forked u) s := by
  refine safe_call .readGlobalSecurityState rfl (Or.inl rfl) fun a u _ hwarns => ?_
  match a, hwarns with
  | .error e, hwarns => exact fun hu => by cases hwarns hu
  | .ok (state : GlobalSecurityState), hwarns =>
    refine Proc.safe_check (fun _ => trivial) fun hnormal hu => ?_
    rw [hnormal] at hwarns
    cases hwarns hu

theorem appendLiveSetMutation_safe (kind : DeviceLogMutationKind) (target : Option Uuid)
    (identityVersion today retries : Nat) (liveDevices : List PublicDevice) :
    (appendLiveSetMutation X kind target identityVersion today retries liveDevices).Safe
      (postureRules X) (fun _ u => ¬ Forked u) s := by
  have hnone : ∀ t, checkNonePending.Safe (postureRules X) (fun _ _ => True) t := by
    refine fun t => safe_require .readPendingMutation rfl (Or.inl rfl) fun pending u _ _ => ?_
    match pending with
    | none | some _ => trivial
  induction retries generalizing liveDevices s with
  | zero =>
    refine Proc.Safe.bind ((hnone s).mono fun _ t _ => ?_)
    refine Proc.Safe.bind (checkPosture_safe.mono fun _ u hu => ?_)
    exact mutateLiveSet_quiet (fun r hr => by cases hr) _ _ _ _ _ hu
  | succ retries ih =>
    refine Proc.Safe.bind ((hnone s).mono fun _ t _ => ?_)
    refine Proc.Safe.bind (checkPosture_safe.mono fun _ u hu => ?_)
    refine mutateLiveSet_quiet (fun r hr devices w _ => ?_) _ _ _ _ _ hu
    rw [← Option.some.inj hr]
    exact ih devices

/-! ### The manager -/

theorem confirmRevoked_calm (target : Uuid) : Calm X (confirmRevoked X target) s := by
  refine (calm_call (.fetchOwnDevices none) rfl rfl).bind fun a u => ?_
  obtain e | (_ | ⟨devices, etag, head⟩) := (a : Except Failure OwnDeviceRefresh)
  · trivial
  · trivial
  · dsimp only
    split
    · trivial
    · exact authenticateOwnSet_calm devices

theorem finishPendingRemovalIfNeeded_calm : Calm X (finishPendingRemovalIfNeeded X) s := by
  refine safe_require .readPendingMutation rfl (Or.inl rfl) fun pending u hcalm hwarns => ?_
  match pending, hwarns with
  | none, _ => exact hcalm
  | some m, hwarns =>
    have hu := hwarns m rfl
    dsimp only
    split
    · exact hcalm
    · next target _ =>
      split
      · exact hcalm
      · have hfinish : ∀ w current, Quiet X (clearMutation m >>= fun _ =>
            cleanupIfOwn target current) w :=
          fun _ current => clearMutation_quiet.bind fun _ _ =>
            (cleanupIfOwn_calm target current).quiet
        refine Proc.Safe.mono (fun _ _ hw _ => hw) (Quiet.bind ownDeviceId_calm.quiet
          (fun current w => (quiet_call (.revokeDevice target) rfl).bind fun a x => ?_) hu)
        cases a with
        | ok _ => exact hfinish x current
        | error e => exact (confirmRevoked_calm target).quiet.bind fun _ y => hfinish y current

theorem storeListing_calm (devices : List LinkedDevice) (etag : String) :
    Calm X (storeListing X devices etag) s := by
  refine (authenticateOwnSet_calm devices).bind fun _ t => ?_
  refine ownDeviceId_calm.bind fun own u => ?_
  split
  · trivial
  · split
    · exact (calm_call .cleanupAfterSelfRevocation rfl rfl).bind fun _ _ => trivial
    · refine (calm_require (.replaceOwnDevices etag _) rfl rfl).bind fun _ w => ?_
      exact (calm_require (.markMissingHistorySources _) rfl rfl).bind fun _ _ => calm_ret _

theorem cleanupIfRemotelyRevoked_calm : Calm X (cleanupIfRemotelyRevoked X) s := by
  refine (calm_require .readLocalIdentity rfl rfl).bind fun (own : LocalIdentity) t => ?_
  refine (calm_require .fetchPublicDevices rfl rfl).bind fun (list : PublicDeviceList) u => ?_
  split
  · exact calm_ret false
  · exact (verifyPublicList_calm list).bind fun _ _ => cleanup_calm true

theorem refresh_safe : (refresh X).Safe (postureRules X) (fun _ _ => True) s := by
  refine Proc.Safe.bind (resumePendingMutation_calm.mono fun _ t _ => ?_)
  refine Proc.Safe.bind (finishPendingRemovalIfNeeded_calm.mono fun _ u _ => ?_)
  refine safe_require .readOwnDevicesEtag rfl (Or.inl rfl) fun etag w _ _ => ?_
  refine safe_call (.fetchOwnDevices etag) rfl (Or.inl rfl) fun a x _ _ => ?_
  match a with
  | .error e =>
    refine Proc.Safe.bind (Proc.Safe.attempt (cleanupIfRemotelyRevoked_calm.mono ?_) ?_)
    · intro revoked _ _
      cases revoked <;> trivial
    · intro _ _ _
      trivial
  | .ok .notModified => exact (calm_require .readOwnDevices rfl rfl).mono fun _ _ _ => trivial
  | .ok (.updated devices etag head) =>
    exact (storeListing_calm devices etag).mono fun _ _ _ => trivial

variable (deviceId : Uuid)

theorem relabel_safe (label : String) :
    (relabel X deviceId label).Safe (postureRules X) (fun _ _ => True) s := by
  refine Proc.Safe.bind (checkPosture_safe.mono fun _ t _ => ?_)
  refine safe_require .readLocalIdentity rfl (Or.inl rfl) fun _ u _ _ => ?_
  refine Proc.Safe.bind (Proc.safe_ofExcept (fun _ _ => trivial) fun ciphertext _ => ?_)
  refine safe_require (.relabelDevice _ _) rfl (Or.inl rfl) fun _ w _ _ => ?_
  exact safe_require (.updateEncryptedLabel _ _ _) rfl (Or.inl rfl) fun _ _ _ _ => trivial

theorem settleRevocation_quiet : Quiet X (settleRevocation deviceId) s := by
  have hcleanup : ∀ t, Quiet X (ownDeviceId >>= fun own => cleanupIfOwn deviceId own) t :=
    fun _ => (ownDeviceId_calm.bind fun own _ => cleanupIfOwn_calm deviceId own).quiet
  refine (quiet_call .readPendingMutation rfl).bind fun a u => ?_
  match a with
  | .ok (some mutation) => exact clearMutation_quiet.bind fun _ w => hcleanup w
  | .ok none | .error e => exact hcleanup u

theorem revoke_safe (today : Nat) (deviceId : Uuid) :
    (revoke X today deviceId).Safe (postureRules X) (fun _ _ => True) s := by
  refine Proc.Safe.bind (checkPosture_safe.mono fun _ t _ => ?_)
  refine safe_require .fetchPublicDevices rfl (Or.inl rfl) fun (list : PublicDeviceList) u _ _ => ?_
  split
  · split
    · trivial
    · refine Proc.Safe.bind ((appendLiveSetMutation_safe _ _ _ _ _ _).mono fun _ w hw => ?_)
      refine safe_require (.revokeDevice _) rfl (Or.inl rfl) fun _ x hx _ => ?_
      exact (settleRevocation_quiet deviceId (hx hw)).mono fun _ _ _ => trivial
  · trivial

theorem process_safe (op : Operation) :
    (op.process X).Safe (postureRules X) (fun _ _ => True) s := by
  cases op with
  | refresh => exact Proc.Safe.bind (refresh_safe.mono fun _ _ _ => trivial)
  | relabel deviceId label => exact relabel_safe deviceId label
  | revoke today deviceId => exact revoke_safe today deviceId
  | resumePendingMutation => exact resumePendingMutation_calm.mono fun _ _ _ => trivial
  | appendLiveSetMutation kind target identityVersion today liveDevices =>
    exact (appendLiveSetMutation_safe _ _ _ _ _ _).mono fun _ _ _ => trivial
  | verifyCurrentChain => exact Proc.Safe.bind (verifyCurrentChain_calm.mono fun _ _ _ => trivial)

end Operations

/-! ## Every run -/

theorem forked_gossip {s : Option OwnRows} (hs : Forked s) (peerMismatch : Bool)
    (heads : List (Nat × Bytes)) : Forked (s.map (commitHeadGossip peerMismatch heads)) := by
  obtain ⟨rows, rfl, hfork⟩ := hs
  refine ⟨_, rfl, ?_⟩
  unfold commitHeadGossip
  split
  · rfl
  · exact hfork

theorem posture_apart (X : Ctx) :
    Proc.World.ApartSafe (postureWorld X True) Raises (postureRules X) where
  calls := rfl
  failed _ := trivial
  guar_refl _ := ⟨id, Or.inr⟩
  guar s t h halone := ⟨h.1, h.2, fun hs ht => halone ⟨hs, ht⟩⟩
  init s h := by
    obtain ⟨rows, rfl, hnormal, _⟩ := h
    rintro ⟨r, hr, hfork⟩
    rw [← Option.some.inj hr, hnormal] at hfork
    cases hfork
  env s t hinv h := by
    obtain ⟨⟨peerMismatch, heads, rfl⟩, hcareful⟩ := h
    refine ⟨fun ht => ?_, fun hs => by rw [hs]; rfl, fun hs => Or.inr (forked_gossip hs _ _)⟩
    have hpending : NonePending s := by
      by_cases hs : Forked s
      · exact hinv hs
      · exact hcareful trivial ⟨hs, ht⟩
    intro rows' hrows'
    obtain ⟨rows, rfl, rfl⟩ := Option.map_eq_some_iff.mp hrows'
    unfold commitHeadGossip
    split <;> exact hpending rows rfl
  start p h s _ := by
    obtain ⟨op, rfl⟩ := h
    exact process_safe op

/-- **A recorded fork is not cleared** along every run in which a fork is recorded only while no
mutation is pending and no other operation is under way, and in which the posture can be read. -/
theorem fork_alarm_stays (X : Ctx)
    {pool pool' : Proc.Pool Call Call.Answer Failure Unit (Option OwnRows)}
    (h : ((postureWorld X True).apart Raises).Reachable pool)
    (hrun : Relation.ReflTransGen ((postureWorld X True).apart Raises).step pool pool')
    {rows rows' : OwnRows} (hrows : pool.state = some rows) (hrows' : pool'.state = some rows')
    (hfork : rows.posture = .deviceLogFork) : rows'.posture = .deviceLogFork := by
  have hstays : pool'.state = none ∨ Forked pool'.state := by
    clear hrows'
    induction hrun with
    | refl => exact Or.inr ⟨rows, hrows, hfork⟩
    | @tail pool₁ pool₂ hbefore hstep ih =>
      obtain ⟨hinv, hsafe⟩ := (posture_apart X).inductive_apart.reachable (h.steps hbefore)
      obtain ⟨⟨hnone, hforked⟩, _⟩ := (posture_apart X).step hinv hsafe hstep
      rcases ih with h | h
      · exact Or.inl (hnone h)
      · exact hforked h
  rcases hstays with h | ⟨r, hr, hfork'⟩
  · rw [h] at hrows'
    cases hrows'
  · rw [← Option.some.inj (hr.symm.trans hrows')]
    exact hfork'

/-! ## One device -/

section One

def alarmCtx : Ctx where
  own := ⟨⟨List.replicate 16 9, rfl⟩, ⟨List.replicate 16 1, rfl⟩, ⟨List.replicate 16 9, rfl⟩⟩
  userId := ⟨List.replicate 16 9, rfl⟩
  log :=
    { createDeviceLogRecord := fun sequence _ _ _ _ => .ok (List.replicate sequence 0)
      inspectDeviceLogRecord := fun record => .ok ⟨record.length, zeroHash, zeroHash⟩ }
  covers _ _ := true
  openDeviceLabel _ _ := .error .malformed
  sealDeviceLabel _ _ := .error .malformed

/-- The server has record 0, and says it has record 1 once it is asked for it. -/
def alarmAnswer : (c : Call) → Option OwnRows → c.Answer × Option OwnRows
  | .fetchDeviceLog none, s => (.ok ⟨[(0, [])], false, some 0⟩, s)
  | .fetchDeviceLog (some _), s => (.ok ⟨[(1, [0])], false, some 1⟩, s)
  | .fetchPublicDevices, s => (.ok ⟨[], some 0⟩, s)
  | .appendDeviceLog _ _, s => (.ok (1, 1), s)
  | c, s => storeAnswer alarmCtx.own c s

theorem alarmAnswer_calls (c : Call) (s : Option OwnRows) :
    (postureWorld alarmCtx False).calls c s (alarmAnswer c s).1 (alarmAnswer c s).2 := by
  refine ⟨?_, False.elim⟩
  cases c with
  | fetchDeviceLog after => cases after <;> exact rfl
  | fetchPublicDevices | appendDeviceLog => exact rfl
  | _ => exact storeAnswer_calls _ _ _

def freshRows : OwnRows := ⟨.normal, [], [], [], none, none⟩

def alarmProcess : P Unit :=
  (Operation.appendLiveSetMutation .add none 1 0 []).process alarmCtx

end One

/-- Gossip raises the alarm, and the check of a relabelling reads it. -/
theorem fork_alarm_stays_relabel : ∃ pool pool' rows rows',
    ((postureWorld alarmCtx True).apart Raises).Reachable pool ∧
    Relation.ReflTransGen ((postureWorld alarmCtx True).apart Raises).step pool pool' ∧
    pool.state = some rows ∧ rows.posture = .deviceLogFork ∧
    pool'.state = some rows' ∧ rows'.posture = .deviceLogFork := by
  let forkRows : OwnRows := { freshRows with posture := .deviceLogFork }
  have hfresh : ((postureWorld alarmCtx True).apart Raises).Reachable ⟨some freshRows, []⟩ :=
    .init ⟨⟨freshRows, rfl, rfl, rfl⟩, rfl⟩
  have hgossip : ((postureWorld alarmCtx True).apart Raises).Reachable ⟨some forkRows, []⟩ := by
    refine .step hfresh (.env ⟨⟨true, [], rfl⟩, fun _ _ rows hrows => ?_⟩ fun _ p hp => ?_)
    · rw [← Option.some.inj hrows]
      rfl
    · cases hp
  have hstart : ((postureWorld alarmCtx True).apart Raises).step ⟨some forkRows, []⟩
      ⟨some forkRows, [relabel alarmCtx alarmCtx.userId ""]⟩ := .start ⟨.relabel _ _, rfl⟩
  have hnot : ¬ Raises (some forkRows) (some forkRows) := fun h => h.1 h.2
  have hcall : ((postureWorld alarmCtx True).apart Raises).step
      ⟨some forkRows, [relabel alarmCtx alarmCtx.userId ""]⟩
      ⟨some forkRows, [.fail .policyBlocked]⟩ := by
    have hread : (postureWorld alarmCtx True).calls .readGlobalSecurityState (some forkRows)
        (.ok GlobalSecurityState.deviceLogFork) (some forkRows) := by
      refine ⟨⟨forkRows, rfl, rfl, rfl⟩, fun _ => ⟨fun rows hrows => ?_, fun h => absurd h hnot⟩⟩
      rw [← Option.some.inj hrows]
    have hfirst : [relabel alarmCtx alarmCtx.userId ""][0]? = some (.ask .readGlobalSecurityState _) :=
      rfl
    exact Proc.World.ApartStep.call hfirst hread fun h => absurd h hnot
  have hrun := (Relation.ReflTransGen.single hstart).tail hcall
  exact ⟨_, _, _, _, hgossip, hrun, rfl, rfl, rfl,
    fork_alarm_stays alarmCtx hgossip hrun rfl rfl rfl⟩

/-- A mutation is stored and waits for its append; gossip raises the alarm; the append is confirmed
and the posture is normal. -/
theorem gossip_alarm_erased : ∃ pool pool' rows rows',
    (postureWorld alarmCtx False).system.Reachable pool ∧
    Relation.ReflTransGen (postureWorld alarmCtx False).system.step pool pool' ∧
    pool.state = some rows ∧ rows.posture = .deviceLogFork ∧
    pool'.state = some rows' ∧ rows'.posture = .normal := by
  have hfresh : (postureWorld alarmCtx False).system.Reachable ⟨some freshRows, []⟩ :=
    .init ⟨⟨freshRows, rfl, rfl, rfl⟩, rfl⟩
  have hwaiting := Proc.World.reachable_steps alarmAnswer alarmAnswer_calls 9 alarmProcess [] []
    (.step hfresh (.start ⟨_, rfl⟩))
  have hgossip := System.Reachable.step hwaiting (.env ⟨⟨true, [], rfl⟩, False.elim⟩)
  exact ⟨_, _, _, _, hgossip, Proc.World.steps_steps alarmAnswer alarmAnswer_calls 10 _ _ [] [],
    rfl, rfl, rfl, rfl⟩

end CommPlatform.Devices.Alarm
