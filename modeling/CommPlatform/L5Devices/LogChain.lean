import CommPlatform.L5Devices.OwnDeviceLog

/-!
# The own device log as one chain

Any number of devices of one account prepare and append records, each over
its own rows, their requests interleaved in any way. A request may be lost
before it arrives, or its answer may be; it may also arrive after the device
gave it up, and an operation may be begun again at any time.

`append_log` takes a record as the next one without looking at it
(backend/devices/services.py:485-516), so a record made for sequence `n` is
stored at `n + 1` when another device's append arrives first.
-/
namespace CommPlatform.Devices

open CommPlatform.Core Server L4

variable {v : VerifiedLog} {record : Bytes}

/-! ## Chains -/

section Chain

variable (port : LogPort)

def recordHash (record : Bytes) : Bytes :=
  match port.inspectDeviceLogRecord record with
  | .ok inspected => inspected.recordHash
  | .error _ => []

/-- The hash the record after `log` names. -/
def linkAfter (log : List Bytes) : Bytes :=
  (log.getLast?.map (recordHash port)).getD zeroHash

/-- The record carries the sequence and the hash. -/
def Carries (record : Bytes) (sequence : Nat) (previousHash : Bytes) : Prop :=
  ∃ inspected, port.inspectDeviceLogRecord record = .ok inspected ∧
    inspected.sequence = sequence ∧ inspected.previousHash = previousHash

/-- Every record is where it says, behind the record it names. -/
def Chained (log : List Bytes) : Prop :=
  ∀ n record, log[n]? = some record → Carries port record n (linkAfter port (log.take n))

/-- A record for `sequence`, linked to the log as it is before it. -/
def Ready (log : List Bytes) (record : Bytes) (sequence : Nat) : Prop :=
  sequence ≤ log.length ∧ Carries port record sequence (linkAfter port (log.take sequence))

/-- What was read is the beginning of the log. -/
def ReadOf (log : List Bytes) (v : VerifiedLog) : Prop :=
  v.records.map (·.1) <+: log ∧ v.hash = linkAfter port (v.records.map (·.1))

variable {port} {log log' : List Bytes}

theorem Ready.grow {sequence : Nat} (h : Ready port log record sequence)
    (hlog : log <+: log') : Ready port log' record sequence := by
  obtain ⟨hle, hcarries⟩ := h
  obtain ⟨rest, rfl⟩ := hlog
  refine ⟨hle.trans (by simp), ?_⟩
  rwa [List.take_append_of_le_length hle]

theorem ReadOf.grow (h : ReadOf port log v) (hlog : log <+: log') :
    ReadOf port log' v := ⟨h.1.trans hlog, h.2⟩

theorem ReadOf.ready (h : ReadOf port log v)
    (hrecord : Carries port record v.records.length v.hash) :
    Ready port log record v.records.length := by
  have hle : v.records.length ≤ log.length := by
    simpa using h.1.length_le
  have htake : log.take v.records.length = v.records.map (·.1) := by
    simpa using (List.prefix_iff_eq_take.mp h.1).symm
  refine ⟨hle, ?_⟩
  rw [htake, ← h.2]
  exact hrecord

theorem Chained.append (h : Chained port log)
    (hrecord : Ready port log record log.length) : Chained port (log ++ [record]) := by
  intro n r hr
  rcases Nat.lt_or_ge n log.length with hlt | hge
  · rw [List.getElem?_append_left hlt] at hr
    rw [List.take_append_of_le_length hlt.le]
    exact h n r hr
  · rw [List.getElem?_append_right hge, List.getElem?_singleton] at hr
    obtain ⟨hz, rfl⟩ := Option.ite_none_right_eq_some.mp hr |>.imp id Option.some.inj
    obtain rfl : n = log.length := by omega
    simpa using hrecord.2

end Chain

/-! ## Reading -/

section Reading

def Serves (log : List Bytes) (after : Option Nat) (page : LogPage) : Prop :=
  ∃ served, page.records = (served.zipIdx (firstAfter after)).map (fun (blob, seq) => (seq, blob)) ∧
    served <+: log.drop (firstAfter after)

theorem firstAfter_headSequence (v : VerifiedLog) : firstAfter v.headSequence = v.records.length :=
    by
  unfold VerifiedLog.headSequence
  split
  · next h => simp [h, firstAfter]
  · next h =>
    have := List.length_pos_of_ne_nil h
    simp only [firstAfter, Option.elim_some]
    omega

variable {C : Type} {A : C → Type} {σ : Type} {M : Proc.Rules C A σ} {R : Repository C A}
  {port : LogPort} {onInvalid onUnlinked : Proc C A Failure Unit} {unlinked : Failure}

theorem inspectRecords_safe (hfailed : ∀ s, M.failed s)
    (hinvalid : ∀ s, onInvalid.Safe M (fun _ _ => True) s)
    (hunlinked : ∀ s, onUnlinked.Safe M (fun _ _ => True) s) {log : List Bytes}
    (served : List Bytes) (hv : ReadOf port log v) (hserved : served <+: log.drop v.records.length)
    {s : σ} :
    (inspectRecords port onInvalid onUnlinked unlinked v
      ((served.zipIdx v.records.length).map fun (blob, seq) => (seq, blob))).Safe M
      (fun v' u => u = s ∧ ReadOf port log v') s := by
  induction served generalizing v with
  | nil => exact ⟨rfl, hv⟩
  | cons blob served ih =>
    refine Proc.Safe.bind ?_
    unfold inspectRecord
    split
    · exact hfailed s
    · split
      · exact Proc.Safe.bind ((hinvalid s).mono fun _ u _ => hfailed u)
      · next value hvalue =>
        split
        · exact Proc.Safe.bind ((hunlinked s).mono fun _ u _ => hfailed u)
        · -- the record linked: what was read is longer by it
          obtain ⟨before, hbefore⟩ := hv.1
          rw [← hbefore, List.drop_left' (by simp)] at hserved
          have hread : ReadOf port log ⟨v.records ++ [(blob, value.recordHash)],
            value.recordHash⟩ := by
            refine ⟨?_, ?_⟩
            · rw [← hbefore, List.map_append, List.prefix_append_right_inj]
              exact (List.prefix_append [blob] served).trans hserved
            · simp [linkAfter, recordHash, hvalue]
          have hrest : served <+: log.drop (v.records ++ [(blob, value.recordHash)]).length := by
            obtain ⟨after, rfl⟩ := hserved
            rw [← hbefore, List.length_append, ← List.drop_drop, List.drop_left' (by simp)]
            exact List.prefix_append served after
          have hsafe := ih hread hrest
          rw [List.length_append] at hsafe
          exact hsafe

/-- What a process relies on to read the log: it only grows, and pages are served from it. -/
structure Reads (M : Proc.Rules C A σ) (R : Repository C A) (logOf : σ → List Bytes) : Prop where
  failed : ∀ s, M.failed s
  fetch : ∀ after s, (R.fetchDeviceLog after).Safe M (fun a u => logOf s <+: logOf u ∧
    ∀ page, a = .ok page → Serves (logOf u) after page) s

variable {logOf : σ → List Bytes}
  (h : Reads M R logOf) (hinvalid : ∀ s, onInvalid.Safe M (fun _ _ => True) s)
  (hunlinked : ∀ s, onUnlinked.Safe M (fun _ _ => True) s)
include h hinvalid hunlinked

theorem readPages_safe (pages : Nat) (fixedHead : Option Nat) {s : σ} (hv : ReadOf port (logOf s) v) :
    (readPages R port onInvalid onUnlinked unlinked pages fixedHead v).Safe M
      (fun v' u => logOf s <+: logOf u ∧ ReadOf port (logOf u) v') s := by
  induction pages generalizing fixedHead v s with
  | zero => exact h.failed s
  | succ pages ih =>
    refine Proc.Safe.bind ((h.fetch v.headSequence s).mono ?_)
    rintro a u ⟨hsu, hpage⟩
    refine Proc.Safe.bind (Proc.safe_ofExcept (fun _ _ => h.failed u) fun page ha => ?_)
    obtain ⟨served, hrecords, hserved⟩ := hpage page ha
    rw [firstAfter_headSequence] at hrecords hserved
    dsimp only
    split
    · exact h.failed u
    · rw [hrecords]
      refine Proc.Safe.bind ((inspectRecords_safe h.failed hinvalid hunlinked served
        (hv.grow hsu) hserved).mono ?_)
      rintro v' _ ⟨rfl, hv'⟩
      split
      · exact (ih _ hv').mono fun _ w hw => ⟨hsu.trans hw.1, hw.2⟩
      · split
        · exact h.failed _
        · exact ⟨hsu, hv'⟩

theorem verifiedLog_safe (s : σ) : (verifiedLog R port onInvalid onUnlinked unlinked).Safe M
      (fun v u => logOf s <+: logOf u ∧ ReadOf port (logOf u) v) s :=
  readPages_safe h hinvalid hunlinked 50 none ⟨List.nil_prefix, rfl⟩

end Reading

/-! ## The devices of an account -/

structure Account (ι : Type) where
  user : Uuid
  settings : Settings
  identity : UserIdentity
  ctx : ι → Ctx
  port : LogPort
  log_eq : ∀ i, (ctx i).log = port

/-- The server, the rows of each device, and the appends that were given up and may still arrive. -/
structure Fleet (ι : Type) where
  server : Tables
  rows : ι → Option OwnRows
  sent : List (Bytes × Nat)

inductive LogOperation
  | prepareOwnRotation (today : Nat) (bundle : RotatedBundle)
  | appendOrReconcile
  | appendLiveSetMutation (kind : DeviceLogMutationKind) (target : Option Uuid)
      (identityVersion today : Nat) (liveDevices : List PublicDevice)
  | resumePendingMutation

/-- A rotation is prepared and stored, and appended from what is stored. -/
def LogOperation.process (X : Ctx) (identity : UserIdentity) : LogOperation → P Unit
  | .prepareOwnRotation today bundle => do
    let prepared ← Devices.prepareOwnRotation repository X.log identity today bundle
    let _ ← require (.persistPrepared prepared)
  | .appendOrReconcile => do
    match ← require .readPrepared with
    | none => .ret ()
    | some (prepared : PreparedRotationDeviceLog) =>
      Devices.appendOrReconcile repository X.log prepared
  | .appendLiveSetMutation kind target identityVersion today liveDevices =>
    Devices.appendLiveSetMutation X kind target identityVersion today 2 liveDevices
  | .resumePendingMutation => Devices.resumePendingMutation X

section World

variable {ι : Type} (K : Account ι) (timely : List Bytes → Nat → Prop)

def Fleet.log (s : Fleet ι) : List Bytes := s.server.log K.user

/-- The append reaches the server. -/
def arrives (record : Bytes) (expected : Nat) (s t : Tables) (range : Nat × Nat) : Prop :=
  timely (s.log K.user) expected ∧ appendLog K.settings s K.user [record] = .ok (range, t)

def serverCalls : (c : Call) → Fleet ι → c.Answer → Fleet ι → Prop
  | .fetchDeviceLog after, s, a, t => t.server = s.server ∧ t.sent = s.sent ∧
      ∀ page, a = .ok page → page = peerLog s.server K.user after
  | .appendDeviceLog record expected, s, a, t =>
    (t.sent = s.sent ∧ ∃ range, arrives K timely record expected s.server t.server range ∧
      (a = .ok range ∨ ∃ e, a = .error e)) ∨
    (t.server = s.server ∧ (∃ e, a = .error e) ∧
      (t.sent = s.sent ∨ t.sent = s.sent ++ [(record, expected)]))
  | _, s, _, t => t.server = s.server ∧ t.sent = s.sent

/-- The operations of all devices. An append reaches the server only when `timely` allows it. -/
def fleetWorld : Proc.World (ι × Call) (fun c => c.2.Answer) Failure Unit (Fleet ι) where
  init s := s.server.active K.user = true ∧ Chained K.port (s.log K) ∧ s.sent = [] ∧
    ∀ i rows, s.rows i = some rows → rows.mutations = [] ∧ rows.prepared = none
  env s t := ∃ record expected range, (record, expected) ∈ s.sent ∧
    arrives K timely record expected s.server t.server range ∧ t.rows = s.rows ∧
    t.sent = s.sent.erase (record, expected)
  starts p := ∃ (i : ι) (op : LogOperation), p = (op.process (K.ctx i) K.identity).tagged i
  calls c s a t := storeCalls (K.ctx c.1).own c.2 (s.rows c.1) a (t.rows c.1) ∧
    (∀ j, j ≠ c.1 → t.rows j = s.rows j) ∧ serverCalls K timely c.2 s a t

end World

variable {c : Call} {a : c.Answer}

/-! ## What each call keeps -/

section Calls

variable {ι : Type} {K : Account ι}

/-- The record of the next sequence, and no other. -/
def atItsSequence (log : List Bytes) (expected : Nat) : Prop := log.length = expected

structure RowsCarry (port : LogPort) (rows : OwnRows) : Prop where
  mutations : ∀ m ∈ rows.mutations, Carries port m.exactRecord m.expectedSequence m.previousHeadHash
  prepared : ∀ p, rows.prepared = some p →
    Carries port p.exactRecord.bytes p.expectedSequence p.previousHeadHash.bytes

structure FleetInv (K : Account ι) (s : Fleet ι) : Prop where
  active : s.server.active K.user = true
  chained : Chained K.port (s.log K)
  rows : ∀ i rows, s.rows i = some rows → RowsCarry K.port rows
  sent : ∀ q ∈ s.sent, Ready K.port (s.log K) q.1 q.2

/-- What a process answers for when it makes the call. -/
def Owes (port : LogPort) (log : List Bytes) : Call → Prop
  | .writePendingMutation m => Carries port m.exactRecord m.expectedSequence m.previousHeadHash
  | .persistPrepared p => Carries port p.exactRecord.bytes p.expectedSequence p.previousHeadHash.bytes
  | .appendDeviceLog record expected => Ready port log record expected
  | _ => True

/-- What it learns from the answer. -/
def Tells (port : LogPort) (log : List Bytes) : (c : Call) → c.Answer → Prop
  | .readPendingMutation, a => ∀ m, a = .ok (some m) →
      Carries port m.exactRecord m.expectedSequence m.previousHeadHash
  | .readPrepared, a => ∀ p, a = .ok (some p) →
      Carries port p.exactRecord.bytes p.expectedSequence p.previousHeadHash.bytes
  | .fetchDeviceLog after, a => ∀ page, a = .ok page → Serves log after page
  | _, _ => True

variable {port : LogPort}

theorem Owes.grow {log log' : List Bytes} (h : Owes port log c)
    (hlog : log <+: log') : Owes port log' c := by
  cases c with
  | appendDeviceLog record expected => exact Ready.grow h hlog
  | _ => exact h

variable {expected : Nat} {range : Nat × Nat}

theorem arrives_log {timely : List Bytes → Nat → Prop}
    {s t : Tables} (h : arrives K timely record expected s t range) :
    t.log K.user = s.log K.user ++ [record] ∧ t.active = s.active := by
  obtain ⟨_, happend⟩ := h
  simp only [appendLog, unit_bind_eq_ok, failIf_eq_ok] at happend
  obtain ⟨_, happend⟩ := happend
  rw [← (Prod.mk.inj (Except.ok.inj happend)).2]
  exact ⟨if_pos rfl, rfl⟩

variable {s t : Fleet ι}

theorem FleetInv.arrive (h : FleetInv K s)
    (ha : arrives K atItsSequence record expected s.server t.server range)
    (hready : Ready K.port (s.log K) record expected) :
    t.server.active K.user = true ∧ Chained K.port (t.log K) ∧ s.log K <+: t.log K := by
  obtain ⟨hlog, hactive⟩ := arrives_log ha
  obtain rfl : (s.log K).length = expected := ha.1
  refine ⟨hactive ▸ h.active, ?_, ?_⟩
  · rw [Fleet.log, hlog]
    exact h.chained.append hready
  · rw [Fleet.log, Fleet.log, hlog]
    exact List.prefix_append _ _

theorem upsertMutation_mem {rows : List PendingDeviceLogMutation} {m m' : PendingDeviceLogMutation}
    (h : m' ∈ upsertMutation rows m) : m' = m ∨ m' ∈ rows := by
  unfold upsertMutation at h
  split at h
  · obtain ⟨row, hrow, rfl⟩ := List.mem_map.mp h
    split
    · exact Or.inl rfl
    · exact Or.inr hrow
  · rcases List.mem_append.mp h with h | h
    · exact Or.inr h
    · exact Or.inl (List.mem_singleton.mp h)

variable {own : LocalIdentity} {log : List Bytes}

theorem kept_carry (howes : Owes port log c) {s : OwnRows} {a : c.Carried} {t : Option OwnRows}
    (hkept : kept own c s a t) (hs : RowsCarry port s) : ∀ rows, t = some rows →
      RowsCarry port rows := by
  have hto {next : OwnRows} (hnext : t = some next) (hc : RowsCarry port next) :
      ∀ rows, t = some rows → RowsCarry port rows := by
    rintro rows hrows
    cases hnext.symm.trans hrows
    exact hc
  cases c with
  | writePendingMutation m =>
    refine hto hkept ⟨fun m' hm' => ?_, hs.prepared⟩
    rcases upsertMutation_mem hm' with rfl | hm'
    · exact howes
    · exact hs.mutations m' hm'
  | clearPendingMutation op =>
    exact hto hkept ⟨fun m hm => hs.mutations m (List.mem_of_mem_filter hm), hs.prepared⟩
  | persistPrepared p =>
    refine hto hkept ⟨hs.mutations, fun p' hp' => ?_⟩
    rw [← Option.some.inj hp']
    exact howes
  | setGlobalSecurityState | replaceOwnDevices | updateEncryptedLabel =>
    exact hto hkept ⟨hs.mutations, hs.prepared⟩
  | appendAuthenticatedLogRecords => exact hto hkept.2 ⟨hs.mutations, hs.prepared⟩
  | cleanupAfterSelfRevocation =>
    rintro rows hrows
    cases Eq.trans (Eq.symm hkept) hrows
  | readPendingMutation | readAuthenticatedLogHead => exact hto hkept.1 hs
  | readLocalIdentity | readGlobalSecurityState | readOwnDevices | readOwnDevicesEtag
  | readPrepared => exact hto hkept.2 hs
  | _ => exact hto hkept hs

theorem rows_carry (howes : Owes port log c) {s t : Option OwnRows} (h : storeCalls own c s a t)
    (hs : ∀ rows, s = some rows → RowsCarry port rows) :
    ∀ rows, t = some rows → RowsCarry port rows := by
  cases a with
  | error e => rwa [show t = s from h]
  | ok v =>
    simp only [storeCalls] at h
    split at h
    · rwa [h]
    · obtain ⟨rows, hrows, hkept⟩ := h
      exact kept_carry howes hkept (hs rows hrows)

theorem calls_keep {i : ι} (h : FleetInv K s)
    (hcall : (fleetWorld K atItsSequence).calls (i, c) s a t) (howes : Owes K.port (s.log K) c) :
    FleetInv K t ∧ s.log K <+: t.log K := by
  obtain ⟨hstore, hothers, hserver⟩ := hcall
  have hrows : ∀ j rows, t.rows j = some rows → RowsCarry K.port rows := by
    intro j
    by_cases hj : j = i
    · subst hj
      exact rows_carry howes hstore (h.rows j)
    · rw [hothers j hj]
      exact h.rows j
  have hquiet : t.server = s.server → t.sent = s.sent → FleetInv K t ∧ s.log K <+: t.log K := by
    intro hs hsent
    have hlog : t.log K = s.log K := by rw [Fleet.log, Fleet.log, hs]
    refine ⟨⟨hs ▸ h.active, hlog ▸ h.chained, hrows, ?_⟩, hlog ▸ List.prefix_refl _⟩
    rw [hsent, hlog]
    exact h.sent
  cases c with
  | fetchDeviceLog after => exact hquiet hserver.1 hserver.2.1
  | appendDeviceLog record expected =>
    rcases hserver with ⟨hsent, range, harrives, _⟩ | ⟨hs, _, hsent | hsent⟩
    · obtain ⟨hactive, hchained, hgrow⟩ := h.arrive harrives howes
      refine ⟨⟨hactive, hchained, hrows, fun q hq => ?_⟩, hgrow⟩
      exact (h.sent q (hsent ▸ hq)).grow hgrow
    · exact hquiet hs hsent
    · have hlog : t.log K = s.log K := by rw [Fleet.log, Fleet.log, hs]
      refine ⟨⟨hs ▸ h.active, hlog ▸ h.chained, hrows, fun q hq => ?_⟩, hlog ▸ List.prefix_refl _⟩
      rw [hlog]
      rcases List.mem_append.mp (hsent ▸ hq) with hq | hq
      · exact h.sent q hq
      · rw [List.mem_singleton.mp hq]
        exact howes
  | _ => exact hquiet hserver.1 hserver.2

theorem calls_tell {i : ι} (h : FleetInv K s)
    (hcall : (fleetWorld K atItsSequence).calls (i, c) s a t) : Tells K.port (s.log K) c a := by
  obtain ⟨hstore, _, hserver⟩ := hcall
  cases c with
  | readPendingMutation =>
    rintro m rfl
    obtain ⟨rows, hrows, hkept⟩ : ∃ rows, s.rows i = some rows ∧ _ := hstore
    rcases hkept.2 with ⟨hnone, _⟩ | ⟨m', hm', hsome⟩
    · cases hnone
    · rw [Option.some.inj hsome]
      exact (h.rows i rows hrows).mutations m' hm'
  | readPrepared =>
    rintro p rfl
    obtain ⟨rows, hrows, hkept⟩ : ∃ rows, s.rows i = some rows ∧ _ := hstore
    exact (h.rows i rows hrows).prepared p hkept.1.symm
  | fetchDeviceLog after =>
    intro page hpage
    rw [hserver.2.2 page hpage, peerLog, if_pos h.active]
    exact ⟨_, rfl, List.take_prefix _ _⟩
  | _ => trivial

end Calls

/-! ## Operations -/

/-- While a process waits, and by its own calls, the log only grows. -/
def fleetRules {ι : Type} (K : Account ι) :
    Proc.Rules (ι × Call) (fun c => c.2.Answer) (Fleet ι) where
  calls := (fleetWorld K atItsSequence).calls
  rely s t := s.log K <+: t.log K
  guar s t := s.log K <+: t.log K
  inv := FleetInv K
  failed _ := True
  rely_refl _ := List.prefix_refl _
  rely_trans h h' := h.trans h'

section Operations

variable {ι : Type} {K : Account ι} {i : ι} {β : Type} {Q : β → Fleet ι → Prop} {s : Fleet ι}

theorem Tells.grow {port : LogPort} {log log' : List Bytes}
    (h : Tells port log c a) (hlog : log <+: log') : Tells port log' c a := by
  cases c with
  | fetchDeviceLog after =>
    intro page hpage
    obtain ⟨served, hrecords, hserved⟩ := h page hpage
    obtain ⟨rest, rfl⟩ := hlog
    refine ⟨served, hrecords, hserved.trans ?_⟩
    rw [List.drop_append]
    exact List.prefix_append _ _
  | _ => exact h

theorem safe_call (c : Call) {f : c.Answer → P β} (howes : Owes K.port (s.log K) c)
    (h : ∀ a u, s.log K <+: u.log K → Tells K.port (u.log K) c a →
      (f a).Safe ((fleetRules K).place i) Q u) :
    ((Proc.call c : P c.Answer) >>= f).Safe ((fleetRules K).place i) Q s := by
  intro t hst hinv a u hcall
  obtain ⟨hinv', hgrow⟩ := calls_keep hinv hcall (howes.grow hst)
  exact ⟨hinv', hgrow, h a u (hst.trans hgrow) ((calls_tell hinv hcall).grow hgrow)⟩

theorem safe_require (c : Call) {f : c.Carried → P β} (howes : Owes K.port (s.log K) c)
    (h : ∀ v u, s.log K <+: u.log K → Tells K.port (u.log K) c (.ok v) →
      (f v).Safe ((fleetRules K).place i) Q u) :
    (require c >>= f).Safe ((fleetRules K).place i) Q s := by
  refine safe_call c howes fun a u hsu htells => ?_
  cases a with
  | error e => trivial
  | ok v => exact h v u hsu htells

theorem safe_last (c : Call) (howes : Owes K.port (s.log K) c) :
    ((Proc.call c : P c.Answer) >>= fun _ => .ret ()).Safe ((fleetRules K).place i)
      (fun _ u => s.log K <+: u.log K) s :=
  safe_call c howes fun _ _ hsu _ => hsu

theorem setPosture_safe (state : GlobalSecurityState) (evidence : Option DeviceLogEvidenceKind) :
    (setPosture state evidence).Safe ((fleetRules K).place i) (fun _ u => s.log K <+: u.log K) s :=
  safe_last (.setGlobalSecurityState state evidence) trivial

theorem alarm_fail_safe (evidence : DeviceLogEvidenceKind) (e : Failure) :
    (alarm evidence >>= fun _ => (.fail e : P β)).Safe ((fleetRules K).place i) Q s :=
  Proc.Safe.bind ((setPosture_safe _ _).mono fun _ _ _ => trivial)

theorem reads : Reads ((fleetRules K).place i) repository (Fleet.log K) where
  failed _ := trivial
  fetch after s := by
    intro t hst hinv a u hcall
    obtain ⟨hinv', hgrow⟩ := calls_keep hinv hcall trivial
    exact ⟨hinv', hgrow, hst.trans hgrow, (calls_tell hinv hcall).grow hgrow⟩

theorem ownVerifiedLog_safe (s : Fleet ι) : (ownVerifiedLog (K.ctx i)).Safe ((fleetRules K).place i)
      (fun v u => s.log K <+: u.log K ∧ ReadOf K.port (u.log K) v) s := by
  have halarm : ∀ evidence s, (alarm evidence).Safe ((fleetRules K).place i) (fun _ _ => True) s :=
    fun _ _ => (setPosture_safe _ _).mono fun _ _ _ => trivial
  unfold ownVerifiedLog
  rw [K.log_eq]
  exact verifiedLog_safe reads (halarm _) (halarm _) s

theorem verifiedRotationLog_safe (s : Fleet ι) :
    (verifiedRotationLog repository K.port).Safe ((fleetRules K).place i)
      (fun v u => s.log K <+: u.log K ∧ ReadOf K.port (u.log K) v) s := by
  have hnothing : ∀ t, (.ret () : P Unit).Safe ((fleetRules K).place i) (fun _ _ => True) t :=
    fun _ => trivial
  exact verifiedLog_safe reads hnothing hnothing s

theorem commitVerifiedChain_safe (chain : VerifiedLog) :
    (commitVerifiedChain chain).Safe ((fleetRules K).place i) (fun _ u => s.log K <+: u.log K) s := by
  refine safe_require .readAuthenticatedLogHead trivial fun stored u hsu _ => Proc.Safe.bind ?_
  have hcheck : (checkStoredHead chain stored).Safe ((fleetRules K).place i)
      (fun _ w => s.log K <+: w.log K) u := by
    unfold checkStoredHead
    split
    · exact hsu
    · split
      · exact alarm_fail_safe _ _
      · split
        · exact alarm_fail_safe _ _
        · exact hsu
  refine hcheck.mono fun _ w hsw => ?_
  refine safe_call (.appendAuthenticatedLogRecords chain.authenticated) trivial fun a x hwx _ => ?_
  cases a with
  | error e => exact alarm_fail_safe _ _
  | ok _ => exact hsw.trans hwx

theorem authenticateCurrentLiveSet_safe (X : Ctx) (chain : VerifiedLog)
    (current : PublicDeviceList) :
    (authenticateCurrentLiveSet X chain current).Safe ((fleetRules K).place i)
      (fun _ u => u = s) s := by
  unfold authenticateCurrentLiveSet
  split
  · exact alarm_fail_safe _ _
  · split
    · trivial
    · split
      · exact rfl
      · trivial
      · exact alarm_fail_safe _ _

theorem containsExact_safe (sequence : Nat) (exact : Bytes) :
    (containsExact sequence exact).Safe ((fleetRules K).place i)
      (fun _ u => s.log K <+: u.log K) s := by
  refine safe_call (.fetchDeviceLog _) trivial fun a u hsu _ => ?_
  cases a with
  | error e => exact hsu
  | ok page => exact hsu

theorem clearMutation_safe (m : PendingDeviceLogMutation) :
    (clearMutation m).Safe ((fleetRules K).place i) (fun _ u => s.log K <+: u.log K) s :=
  safe_call (.clearPendingMutation m.operationId) trivial fun _ _ hsu _ =>
    (setPosture_safe _ _).mono fun _ _ h => hsu.trans h

/-- The pending mutation of a record that carries what it says. -/
abbrev PendingDeviceLogMutation.Carries (port : LogPort) (m : PendingDeviceLogMutation) : Prop :=
  Devices.Carries port m.exactRecord m.expectedSequence m.previousHeadHash

variable {m : PendingDeviceLogMutation}

theorem finishConfirmedMutation_safe (hm : m.Carries K.port) :
    (finishConfirmedMutation m).Safe ((fleetRules K).place i)
      (fun _ u => s.log K <+: u.log K) s := by
  unfold finishConfirmedMutation
  split
  · exact safe_last (.writePendingMutation { m with state := .logConfirmed }) hm
  · exact clearMutation_safe m

theorem checkContainsExact_safe (e : Failure) :
    (checkContainsExact m e).Safe ((fleetRules K).place i) (fun _ u => s.log K <+: u.log K) s := by
  refine Proc.Safe.bind ((containsExact_safe _ _).mono fun there u hsu => ?_)
  exact Proc.safe_check (fun _ => trivial) fun _ => hsu

variable (hm : m.Carries K.port)
include hm

theorem confirmMutation_safe :
    (confirmMutation m).Safe ((fleetRules K).place i) (fun _ u => s.log K <+: u.log K) s := by
  refine Proc.Safe.bind ((checkContainsExact_safe _).mono fun _ u hsu => ?_)
  exact (finishConfirmedMutation_safe hm).mono fun _ _ h => hsu.trans h

theorem appendPrepared_safe (hready : Ready K.port (s.log K) m.exactRecord m.expectedSequence) :
    (appendPrepared m).Safe ((fleetRules K).place i) (fun _ _ => True) s := by
  refine safe_call (.appendDeviceLog _ _) hready fun a u _ _ => ?_
  have hconfirm : ∀ w, (confirmMutation m).Safe ((fleetRules K).place i) (fun _ _ => True) w :=
    fun w => (confirmMutation_safe hm).mono fun _ _ _ => trivial
  cases a with
  | error e => exact Proc.Safe.bind ((checkContainsExact_safe e).mono fun _ w _ => hconfirm w)
  | ok _ => exact hconfirm u

theorem resumeVerified_safe (hv : ReadOf K.port (s.log K) v) :
    (resumeVerified m v).Safe ((fleetRules K).place i) (fun _ _ => True) s := by
  unfold resumeVerified
  split
  · split
    · trivial
    · exact (finishConfirmedMutation_safe hm).mono fun _ _ _ => trivial
  · split
    · trivial
    · next hnext =>
      -- the head is the one the record was made for, so the record follows what was read
      obtain ⟨hsequence, hhash⟩ := not_or.mp hnext
      refine appendPrepared_safe hm ?_
      rw [← not_not.mp hsequence]
      refine hv.ready ?_
      rw [not_not.mp hsequence, not_not.mp hhash]
      exact hm

omit hm

variable {retry : Option (List PublicDevice → P Unit)}

theorem resumePendingMutation_safe :
    (resumePendingMutation (K.ctx i)).Safe ((fleetRules K).place i) (fun _ _ => True) s := by
  refine safe_require .readPendingMutation trivial fun pending u _ htells => ?_
  match pending, htells with
  | none, _ => trivial
  | some m, htells =>
    have hm := htells m rfl
    dsimp only
    split
    · trivial
    · refine safe_require .readLocalIdentity trivial fun _ w _ _ => ?_
      refine Proc.Safe.bind ((ownVerifiedLog_safe w).mono ?_)
      rintro v x ⟨_, hv⟩
      exact resumeVerified_safe hm hv

variable (hretry : ∀ r, retry = some r →
  ∀ devices u, (r devices).Safe ((fleetRules K).place i) (fun _ _ => True) u)
include hretry

theorem retryMutation_safe (e : Failure) :
    (retryMutation retry m e).Safe ((fleetRules K).place i) (fun _ _ => True) s := by
  unfold retryMutation
  split
  · next r _ _ =>
    refine safe_call .fetchPublicDevices trivial fun a u _ _ => ?_
    cases a with
    | error e => trivial
    | ok latest =>
      dsimp only
      split
      · exact Proc.Safe.bind ((clearMutation_safe m).mono fun _ w _ => hretry r rfl _ w)
      · trivial
  · trivial

theorem appendCreated_safe (hm : m.Carries K.port)
    (hready : Ready K.port (s.log K) m.exactRecord m.expectedSequence) :
    (appendCreated retry m).Safe ((fleetRules K).place i) (fun _ _ => True) s := by
  have hconfirm : ∀ w, (confirmMutation m).Safe ((fleetRules K).place i) (fun _ _ => True) w :=
    fun w => (confirmMutation_safe hm).mono fun _ _ _ => trivial
  refine safe_require (.writePendingMutation m) hm fun _ t hst _ => ?_
  refine Proc.Safe.bind ((setPosture_safe _ _).mono fun _ u htu => ?_)
  refine safe_call (.appendDeviceLog _ _) (hready.grow (hst.trans htu)) fun a w _ _ => ?_
  cases a with
  | error e =>
    refine Proc.Safe.bind ((containsExact_safe _ _).mono fun reconciled x _ => ?_)
    split
    · exact (finishConfirmedMutation_safe hm).mono fun _ _ _ => trivial
    · exact retryMutation_safe hretry e
  | ok range =>
    dsimp only
    split
    · exact Proc.Safe.bind ((checkContainsExact_safe _).mono fun _ x _ => hconfirm x)
    · exact hconfirm w

omit hretry

/-- The port makes the record it is asked for. -/
def Faithful (port : LogPort) : Prop :=
  ∀ sequence previousHash canonicalLiveSet identityVersion coarseUnixDay record,
    port.createDeviceLogRecord sequence previousHash canonicalLiveSet identityVersion
      coarseUnixDay = .ok record → Carries port record sequence previousHash

theorem createMutation_ready (hport : Faithful K.port) {kind : DeviceLogMutationKind}
    {target : Option Uuid} {identityVersion today : Nat} {chain : VerifiedLog}
    {desired : List PublicDevice} {log : List Bytes} (hchain : ReadOf K.port log chain)
    (h : createMutation (K.ctx i) kind target identityVersion today chain desired = .ok m) :
    m.Carries K.port ∧ Ready K.port log m.exactRecord m.expectedSequence := by
  unfold createMutation at h
  split at h
  · cases h
  · obtain ⟨exact, hexact, hm⟩ := bind_eq_ok.mp h
    rw [K.log_eq] at hexact
    have hcarries := hport _ _ _ _ _ _ hexact
    cases hm
    exact ⟨hcarries, hchain.ready hcarries⟩

theorem mutateLiveSet_safe (hport : Faithful K.port) (hretry : ∀ r, retry = some r → ∀ devices u,
      (r devices).Safe ((fleetRules K).place i) (fun _ _ => True) u) (kind : DeviceLogMutationKind)
    (target : Option Uuid) (identityVersion today : Nat) (liveDevices : List PublicDevice) :
    (mutateLiveSet (K.ctx i) retry kind target identityVersion today liveDevices).Safe
      ((fleetRules K).place i) (fun _ _ => True) s := by
  refine safe_require .readLocalIdentity trivial fun own t _ _ => ?_
  refine Proc.Safe.bind (Proc.safe_check (fun _ => trivial) fun _ => ?_)
  refine Proc.Safe.bind ((ownVerifiedLog_safe t).mono ?_)
  rintro chain u ⟨_, hchain⟩
  refine Proc.Safe.bind ((commitVerifiedChain_safe chain).mono fun _ w huw => ?_)
  refine safe_require .fetchPublicDevices trivial fun (current : PublicDeviceList) x hwx _ => ?_
  refine Proc.Safe.bind ((authenticateCurrentLiveSet_safe _ chain current).mono ?_)
  rintro _ x rfl
  split
  · trivial
  · refine Proc.Safe.bind (Proc.safe_ofExcept (fun _ _ => trivial) fun m hm => ?_)
    obtain ⟨hcarries, hready⟩ := createMutation_ready hport (hchain.grow (huw.trans hwx)) hm
    exact appendCreated_safe hretry hcarries hready

theorem checkNonePending_safe :
    checkNonePending.Safe ((fleetRules K).place i) (fun _ _ => True) s := by
  refine safe_require .readPendingMutation trivial fun pending u _ _ => ?_
  match pending with
  | none | some _ => trivial

theorem checkPosture_safe : checkPosture.Safe ((fleetRules K).place i) (fun _ _ => True) s := by
  refine safe_call .readGlobalSecurityState trivial fun a u _ _ => ?_
  match a with
  | .error _ => trivial
  | .ok (state : GlobalSecurityState) => exact Proc.safe_check (fun _ => trivial) fun _ => trivial

theorem appendLiveSetMutation_safe (hport : Faithful K.port) (kind : DeviceLogMutationKind)
    (target : Option Uuid) (identityVersion today : Nat) (retries : Nat)
    (liveDevices : List PublicDevice) :
    (appendLiveSetMutation (K.ctx i) kind target identityVersion today retries liveDevices).Safe
      ((fleetRules K).place i) (fun _ _ => True) s := by
  induction retries generalizing liveDevices s with
  | zero =>
    refine Proc.Safe.bind (checkNonePending_safe.mono fun _ t _ => ?_)
    refine Proc.Safe.bind (checkPosture_safe.mono fun _ u _ => ?_)
    exact mutateLiveSet_safe hport (fun r hr => by cases hr) _ _ _ _ _
  | succ retries ih =>
    refine Proc.Safe.bind (checkNonePending_safe.mono fun _ t _ => ?_)
    refine Proc.Safe.bind (checkPosture_safe.mono fun _ u _ => ?_)
    refine mutateLiveSet_safe hport (fun r hr devices w => ?_) _ _ _ _ _
    rw [← Option.some.inj hr]
    exact ih devices

theorem prepareOwnRotation_safe (hport : Faithful K.port) (identity : UserIdentity) (today : Nat)
    (bundle : RotatedBundle) :
    (prepareOwnRotation repository K.port identity today bundle).Safe ((fleetRules K).place i)
      (fun p _ => Carries K.port p.exactRecord.bytes p.expectedSequence p.previousHeadHash.bytes)
      s := by
  refine safe_require .fetchIdentity trivial fun (published : UserIdentity) t _ _ => ?_
  refine Proc.Safe.bind (Proc.safe_check (fun _ => trivial) fun _ => ?_)
  refine Proc.Safe.bind ((verifiedRotationLog_safe t).mono fun verified u _ => ?_)
  refine safe_require .fetchPublicDevices trivial fun (devices : PublicDeviceList) w _ _ => ?_
  refine Proc.Safe.bind (Proc.safe_check (fun _ => trivial) fun _ => ?_)
  refine Proc.Safe.bind (Proc.safe_check (fun _ => trivial) fun _ => ?_)
  split
  · trivial
  · refine Proc.Safe.bind (Proc.safe_ofExcept (fun _ _ => trivial) fun record hrecord => ?_)
    refine Proc.safe_ofExcept (fun _ _ => trivial) fun p hp => ?_
    unfold preparedRotationDeviceLog at hp
    split at hp
    · cases hp
      exact hport _ _ _ _ _ _ hrecord
    · cases hp

theorem reconcile_safe (p : PreparedRotationDeviceLog) (e : Failure) :
    (reconcile repository K.port p e).Safe ((fleetRules K).place i) (fun _ _ => True) s := by
  refine Proc.Safe.bind (Proc.Safe.attempt ((verifiedRotationLog_safe s).mono ?_) ?_)
  · intro v u _
    exact Proc.safe_check (fun _ => trivial) fun _ => trivial
  · intro _ _ _
    trivial

theorem appendOrReconcile_safe {p : PreparedRotationDeviceLog}
    (hp : Carries K.port p.exactRecord.bytes p.expectedSequence p.previousHeadHash.bytes) :
    (appendOrReconcile repository K.port p).Safe ((fleetRules K).place i) (fun _ _ => True) s := by
  refine Proc.Safe.bind ((verifiedRotationLog_safe s).mono ?_)
  rintro before u ⟨_, hbefore⟩
  split
  · exact Proc.safe_check (fun _ => trivial) fun _ => trivial
  · refine Proc.Safe.bind (Proc.safe_check (fun _ => trivial) fun hcheck => ?_)
    obtain ⟨hsequence, hpositive, hhash⟩ := hcheck
    have hne : before.records ≠ [] := by
      intro hnil
      rw [hnil] at hsequence
      exact hpositive hsequence.symm
    rw [VerifiedLog.headHash, if_neg hne] at hhash
    have hready : Ready K.port (u.log K) p.exactRecord.bytes p.expectedSequence := by
      rw [← hsequence]
      refine hbefore.ready ?_
      rw [hsequence, ← hhash]
      exact hp
    refine safe_call (.appendDeviceLog _ _) hready fun a w _ _ => ?_
    cases a with
    | error e => exact reconcile_safe p e
    | ok range =>
      dsimp only
      split
      · trivial
      · exact reconcile_safe p _

theorem LogOperation.process_safe (hport : Faithful K.port) (op : LogOperation) :
    (op.process (K.ctx i) K.identity).Safe ((fleetRules K).place i) (fun _ _ => True) s := by
  cases op with
  | prepareOwnRotation today bundle =>
    simp only [LogOperation.process, K.log_eq]
    refine Proc.Safe.bind ((prepareOwnRotation_safe hport _ _ _).mono fun p u hp => ?_)
    exact safe_require (.persistPrepared p) hp fun _ _ _ _ => trivial
  | appendOrReconcile =>
    simp only [LogOperation.process, K.log_eq]
    refine safe_require .readPrepared trivial fun prepared u _ htells => ?_
    match prepared, htells with
    | none, _ => trivial
    | some p, htells => exact appendOrReconcile_safe (htells p rfl)
  | appendLiveSetMutation kind target identityVersion today liveDevices =>
    exact appendLiveSetMutation_safe hport _ _ _ _ _ _
  | resumePendingMutation => exact resumePendingMutation_safe

end Operations

/-! ## Every run -/

theorem fleet_inductive {ι : Type} (K : Account ι) (hport : Faithful K.port) :
    (fleetWorld K atItsSequence).system.Inductive fun pool => FleetInv K pool.state ∧
      ∀ p ∈ pool.procs, p.Safe (fleetRules K) (fun _ _ => True) pool.state := by
  refine Proc.World.inductive_of_safe _ (fleetRules K) rfl (fun _ _ h => h) (fun _ => trivial)
    ?_ ?_ ?_
  · rintro s ⟨hactive, hchained, hsent, hrows⟩
    refine ⟨hactive, hchained, fun i rows h => ?_, fun q hq => ?_⟩
    · obtain ⟨hmutations, hprepared⟩ := hrows i rows h
      refine ⟨fun m hm => ?_, fun p hp => ?_⟩
      · rw [hmutations] at hm
        cases hm
      · rw [hprepared] at hp
        cases hp
    · rw [hsent] at hq
      cases hq
  · rintro s t h ⟨record, expected, range, hmem, harrives, hrows, hsent⟩
    obtain ⟨hactive, hchained, hgrow⟩ := h.arrive harrives (h.sent _ hmem)
    refine ⟨⟨hactive, hchained, hrows ▸ h.rows, fun q hq => ?_⟩, hgrow⟩
    exact (h.sent q (List.mem_of_mem_erase (hsent ▸ hq))).grow hgrow
  · rintro p ⟨i, op, rfl⟩ s _
    exact Proc.Safe.tagged (op.process_safe hport)

/-! ## Two devices -/

section Two

/-- A port whose records say their sequence by their length, and whose hashes are all the same. -/
def lengthPort : LogPort where
  createDeviceLogRecord sequence previousHash _ _ _ :=
    if previousHash = zeroHash then .ok (List.replicate sequence 0) else .error (.crypto "")
  inspectDeviceLogRecord record := .ok ⟨record.length, zeroHash, zeroHash⟩

theorem lengthPort_faithful : Faithful lengthPort := by
  intro sequence previousHash _ _ _ record h
  simp only [lengthPort] at h
  split at h
  · next hhash =>
    cases h
    exact ⟨_, rfl, by simp, hhash.symm⟩
  · cases h

def deviceId (b : UInt8) : Uuid := ⟨List.replicate 16 b, rfl⟩

def twoDevices : Account Bool where
  user := deviceId 9
  settings := ⟨8, 10⟩
  identity := ⟨[], [], [], [], 1⟩
  ctx i :=
    { own := ⟨deviceId 9, deviceId (if i then 1 else 0), deviceId 9⟩
      userId := deviceId 9
      log := lengthPort
      covers := fun _ _ => true
      openDeviceLabel := fun _ _ => .error .malformed
      sealDeviceLabel := fun _ _ => .error .malformed }
  port := lengthPort
  log_eq _ := rfl

def fleetAnswer : (c : Bool × Call) → Fleet Bool → c.2.Answer × Fleet Bool
  | (_, .fetchDeviceLog after), s => (.ok (peerLog s.server twoDevices.user after), s)
  | (_, .fetchPublicDevices), s => (.ok ⟨[], headSeq (s.log twoDevices)⟩, s)
  | (_, .appendDeviceLog record _), s =>
    match appendLog twoDevices.settings s.server twoDevices.user [record] with
    | .ok (range, server) => (.ok range, { s with server := server })
    | .error e => (.error (.api e), s)
  | (i, c), s =>
    let answer := storeAnswer (twoDevices.ctx i).own c (s.rows i)
    (answer.1, { s with rows := fun j => if j = i then answer.2 else s.rows j })

theorem fleetAnswer_calls (timely : List Bytes → Nat → Prop) (c : Bool × Call) (s : Fleet Bool)
    (h : ∀ record expected, c.2 = .appendDeviceLog record expected →
      timely (s.log twoDevices) expected) :
    (fleetWorld twoDevices timely).calls c s (fleetAnswer c s).1 (fleetAnswer c s).2 := by
  obtain ⟨i, c⟩ := c
  cases c with
  | fetchDeviceLog after =>
    exact ⟨rfl, fun _ _ => rfl, rfl, rfl, fun page hp => (Except.ok.inj hp).symm⟩
  | fetchPublicDevices => exact ⟨rfl, fun _ _ => rfl, rfl, rfl⟩
  | appendDeviceLog record expected =>
    have htimely := h record expected rfl
    simp only [fleetAnswer]
    split
    · next range server happend =>
      exact ⟨rfl, fun _ _ => rfl, Or.inl ⟨rfl, range, ⟨htimely, happend⟩, Or.inl rfl⟩⟩
    · next e _ => exact ⟨rfl, fun _ _ => rfl, Or.inr ⟨rfl, ⟨_, rfl⟩, Or.inl rfl⟩⟩
  | _ =>
    refine ⟨?_, fun _ hj => if_neg hj, rfl, rfl⟩
    simp only [fleetAnswer, if_true]
    exact storeAnswer_calls _ _ _

def twoStart : Fleet Bool where
  server := ⟨fun _ => true, fun _ => none, [], fun _ => [], fun _ => [[]]⟩
  rows _ := some ⟨.normal, [], [], [], none, none⟩
  sent := []

def twoProcess (i : Bool) : Proc (Bool × Call) (fun c => c.2.Answer) Failure Unit :=
  ((LogOperation.appendLiveSetMutation .add (some (deviceId 0)) 1 0 []).process (twoDevices.ctx i)
    twoDevices.identity).tagged i

/-- Whether an append would arrive at its sequence. -/
def appendsTimely (c : Bool × Call) (s : Fleet Bool) : Bool :=
  match c.2 with
  | .appendDeviceLog _ expected => decide ((s.log twoDevices).length = expected)
  | _ => true

theorem twoStart_reachable (timely : List Bytes → Nat → Prop) :
    (fleetWorld twoDevices timely).system.Reachable ⟨twoStart, []⟩ := by
  refine .init ⟨⟨rfl, ?_, rfl, ?_⟩, rfl⟩
  · intro n record h
    obtain ⟨rfl, rfl⟩ : n = 0 ∧ [] = record := by
      simpa [twoStart, Fleet.log, List.getElem?_singleton] using h
    exact ⟨_, rfl, rfl, rfl⟩
  · rintro i rows h
    cases h
    exact ⟨rfl, rfl⟩

end Two

/-- **The log stays one chain** along every run in which each append arrives at the sequence its
record was made for, whatever is lost, late or begun again. -/
theorem log_stays_one_chain {ι : Type} (K : Account ι) (hport : Faithful K.port)
    {pool : Proc.Pool (ι × Call) (fun c => c.2.Answer) Failure Unit (Fleet ι)}
    (h : (fleetWorld K atItsSequence).system.Reachable pool) :
    Chained K.port (pool.state.log K) :=
  ((fleet_inductive K hport).reachable h).1.chained

/-- The devices append their records one after the other. -/
theorem log_stays_one_chain_two : ∃ pool,
    (fleetWorld twoDevices atItsSequence).system.Reachable pool ∧
    pool.state.log twoDevices = [[], [0], [0, 0]] ∧
      Chained lengthPort (pool.state.log twoDevices) := by
  have hcalls : ∀ c s, appendsTimely c s = true → ∃ t,
      Relation.ReflTransGen (fleetWorld twoDevices atItsSequence).env s t ∧
      (fleetWorld twoDevices atItsSequence).calls c t (fleetAnswer c s).1 (fleetAnswer c s).2 := by
    refine fun c s hok => ⟨s, .refl, fleetAnswer_calls _ c s fun record expected hc => ?_⟩
    simpa [appendsTimely, hc, atItsSequence] using hok
  obtain ⟨p, hp⟩ := Proc.World.reachable_run appendsTimely fleetAnswer hcalls (twoProcess false)
    (by decide +kernel) (.step (twoStart_reachable _) (.start ⟨false, _, rfl⟩))
  obtain ⟨q, hq⟩ := Proc.World.reachable_run appendsTimely fleetAnswer hcalls (twoProcess true)
    (by decide +kernel) (.step hp (.start ⟨true, _, rfl⟩))
  have hlog : ((twoProcess true).run fleetAnswer
      ((twoProcess false).run fleetAnswer twoStart).2).2.log twoDevices = [[], [0], [0, 0]] := by
    decide +kernel
  exact ⟨_, hq, hlog, log_stays_one_chain twoDevices lengthPort_faithful hq⟩

/-- Both devices verify the first record; the second append is stored behind the first and carries
its sequence. -/
theorem two_appends_break_the_chain : ∃ pool,
    (fleetWorld twoDevices fun _ _ => True).system.Reachable pool ∧
    pool.state.log twoDevices = [[], [0], [0]] ∧
      ¬ Chained lengthPort (pool.state.log twoDevices) := by
  have hcalls := fun c s => fleetAnswer_calls (fun _ _ => True) c s fun _ _ _ => trivial
  -- the first device waits before its append, the second runs to its end, the first goes on
  have hwaiting := Proc.World.reachable_steps fleetAnswer hcalls 9 (twoProcess false) [] []
    (.step (twoStart_reachable _) (.start ⟨false, _, rfl⟩))
  have hsecond := Proc.World.reachable_steps fleetAnswer hcalls 20 (twoProcess true) [_] []
    (.step hwaiting (.start ⟨true, _, rfl⟩))
  have hfirst := Proc.World.reachable_steps fleetAnswer hcalls 1 _ [] [_] hsecond
  refine ⟨_, hfirst, by decide +kernel, fun hchained => ?_⟩
  obtain ⟨inspected, hinspected, hsequence, _⟩ := hchained 2 [0] (by decide +kernel)
  cases hinspected
  cases hsequence

end CommPlatform.Devices
