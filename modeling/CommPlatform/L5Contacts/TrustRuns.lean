import CommPlatform.L5Contacts.ForkReports

/-!
# The trust record over a run

Any number of calls of the service about one peer, their steps interleaved at
every await, against a server that answers what and when it likes. A call
reads the record first and writes the whole record last, so a call that
began before a confirmation and ends after it puts the unconfirmed record
back, with the head it once read.
-/
namespace CommPlatform.Contacts

open CommPlatform.Core

/-! ## Runs -/

/-- A call under way. `since` is the key confirmed when it began. -/
structure Running where
  entry : Entry
  since : Option Bytes
  process : P ContactTrustRecord

structure Success where
  entry : Entry
  since : Option Bytes
  record : ContactTrustRecord

/-- The rows of the peer with the calls about it. `confirmed` is the key of the last
`confirmOutOfBand` that succeeded. -/
structure TrustRun where
  store : ContactStore
  confirmed : Option Bytes
  running : List Running
  successes : List Success

def Entry.confirms (entry : Entry) (confirmed : Option Bytes) : Option Bytes :=
  match entry with
  | .confirmOutOfBand exactMasterPublic => some exactMasterPublic
  | _ => confirmed

def TrustRun.settle (run : TrustRun) (r : Running) : TrustRun :=
  match r.process with
  | .ret record => { run with
      confirmed := r.entry.confirms run.confirmed
      successes := run.successes ++ [⟨r.entry, r.since, record⟩] }
  | .fail _ => run
  | .ask _ _ => { run with running := run.running ++ [r] }

/-- A write of the record does not fail. -/
def trustStored : (c : Call) → Answer c → Prop
  | .writeTrust _, a => a = .ok ()
  | _, _ => True

/-- With `apart`, a call begins only when no other is under way, and writes of the record succeed. -/
inductive TrustStep (X : Ctx) (apart : Prop) : TrustRun → TrustRun → Prop
  | start {run : TrustRun} (entry : Entry) (pages : Nat) (h : apart → run.running = []) :
    TrustStep X apart run (run.settle ⟨entry, run.confirmed, entry.process X pages⟩)
  | call {run : TrustRun} {i : Nat} {r : Running} {c : Call} {k : Answer c → P ContactTrustRecord}
    {a : Answer c} {store : ContactStore} (hr : run.running[i]? = some r)
    (hk : r.process = .ask c k) (hc : storeCalls c run.store a store) (h : apart → trustStored c a) :
    TrustStep X apart run ({ run with
      store := store
      running := run.running.eraseIdx i }.settle { r with process := k a })

def trustSystem (X : Ctx) (apart : Prop) : System TrustRun where
  init run := run = ⟨⟨none, [], []⟩, none, [], []⟩
  step := TrustStep X apart

/-! ## Rows -/

section Rows

variable (X : Ctx) (s : ContactStore)

def ContactStore.confirmed : Option Bytes := s.trust.bind (·.confirmedMasterPublic)

def ContactStore.head : Option Nat := s.trust.bind (·.logHeadSequence)

def ContactStore.headHash : Option Bytes := s.trust.bind (·.logHeadHash)

/-- The head does not go back. -/
def HeadLe (before after : Option Nat) : Prop := ∀ n, before = some n → ∃ m, after = some m ∧ n ≤ m

/-- The hash of the head is the one of the only stored record of its sequence. -/
structure HeadStored : Prop where
  distinct : (s.records.map (·.sequence)).Nodup
  stored : ∀ n, s.head = some n → ∃ record ∈ s.records, record.sequence = n ∧
    record.hash = X.crypto.recordHash record.blob ∧ s.headHash = some record.hash

/-- No stored record is past the head. -/
def NoneAhead : Prop := ∀ record ∈ s.records, ∃ n, s.head = some n ∧ record.sequence ≤ n

variable {X s} {t : ContactStore}

theorem HeadLe.refl (head : Option Nat) : HeadLe head head := fun n hn => ⟨n, hn, le_rfl⟩

theorem HeadStored.congr (h : HeadStored X s) (hrecords : t.records = s.records)
    (hhead : t.head = s.head) (hhash : t.headHash = s.headHash) : HeadStored X t := by
  refine ⟨hrecords ▸ h.distinct, fun n hn => ?_⟩
  rw [hrecords, hhash]
  exact h.stored n (hhead ▸ hn)

theorem NoneAhead.congr (h : NoneAhead s) (hrecords : t.records = s.records)
    (hhead : t.head = s.head) : NoneAhead t := by
  intro record hrecord
  rw [hhead]
  exact h record (hrecords ▸ hrecord)

theorem foldl_insertOrIgnore {rows new : List VerifiedDeviceLogRecord}
    (h : ((rows ++ new).map (·.sequence)).Nodup) : new.foldl insertOrIgnore rows = rows ++ new := by
  induction new generalizing rows with
  | nil => rw [List.append_nil]; rfl
  | cons record new ih =>
    have hnew : rows.any (·.sequence = record.sequence) = false := by
      rw [List.any_eq_false]
      intro row hrow heq
      rw [List.map_append, List.nodup_append] at h
      exact h.2.2 _ (List.mem_map_of_mem hrow) _ (List.mem_map_of_mem List.mem_cons_self)
        (of_decide_eq_true heq)
    rw [List.foldl_cons, insertOrIgnore, hnew, if_neg Bool.false_ne_true, ih (by simpa using h),
      List.append_assoc, List.singleton_append]

end Rows

/-! ## One call at a time -/

variable {trust : ContactTrustRecord} {c : Call}

/-- While no other call is under way nobody else writes. The calls of one keep the confirmed key
and the head. -/
def aloneRules (X : Ctx) : Proc.Rules Call Answer ContactStore where
  calls c s a t := storeCalls c s a t ∧ trustStored c a
  rely := Eq
  guar s t := HeadLe s.head t.head ∧ t.confirmed = s.confirmed
  inv := HeadStored X
  failed := NoneAhead
  rely_refl _ := rfl
  rely_trans h h' := h.trans h'

section Alone

variable {X : Ctx} {β : Type} {Q : β → ContactStore → Prop} {s : ContactStore}

theorem guar_refl (X : Ctx) (s : ContactStore) : (aloneRules X).guar s s := ⟨.refl _, rfl⟩

/-- A read, or a call of the server. -/
def Call.reads : Call → Bool
  | .replaceDevices _ | .appendVerifiedLogRecords _ | .writeTrust _ => false
  | _ => true

theorem kept_of_reads (hread : c.reads = true) {s t : ContactStore} {v : Carried c}
    (h : kept c s v t) : t = s := by
  cases c with
  | readTrust | readDevices => exact h.2
  | replaceDevices _ | appendVerifiedLogRecords _ | writeTrust _ => cases hread
  | _ => exact h

theorem alone_ask (hread : c.reads = true) {f : Answer c → P β}
    (h : ∀ a, storeCalls c s a s → (f a).Safe (aloneRules X) Q s) :
    ((Proc.call c : P (Answer c)) >>= f).Safe (aloneRules X) Q s := by
  rintro t rfl hinv a u ⟨hc, _⟩
  have hu : u = s := by
    cases a with
    | error e => exact hc
    | ok v => exact kept_of_reads hread hc
  subst hu
  exact ⟨hinv, guar_refl X u, h a hc⟩

theorem alone_read (hread : c.reads = true) (hs : NoneAhead s)
    {f : Carried c → P β} (h : ∀ v, kept c s v s → (f v).Safe (aloneRules X) Q s) :
    ((Proc.call c : P (Answer c)) >>= fun a => Proc.ofExcept a >>= f).Safe (aloneRules X) Q s := by
  refine alone_ask hread fun a ha => Proc.Safe.bind (Proc.safe_ofExcept (fun _ _ => hs) ?_)
  rintro v rfl
  exact h v ha

theorem alone_writeTrust {f : Answer (.writeTrust trust) → P β}
    (hconfirmed : trust.confirmedMasterPublic = s.confirmed)
    (hhead : HeadLe s.head trust.logHeadSequence)
    (hinv : HeadStored X s → HeadStored X { s with trust := some trust })
    (h : (f (.ok ())).Safe (aloneRules X) Q { s with trust := some trust }) :
    (Local.writeTrust trust >>= f).Safe (aloneRules X) Q s := by
  rintro t rfl hs a u ⟨hc, hok⟩
  obtain rfl : a = .ok () := hok
  obtain rfl : u = { s with trust := some trust } := hc
  exact ⟨hinv hs, ⟨hhead, hconfirmed⟩, h⟩

theorem alone_persistBlocked (hs : NoneAhead s) (state : ContactTrustState)
    (identity : Option PeerIdentityPublic) (e : Failure) :
    (persistBlocked s.trust state identity e : P β).Safe (aloneRules X) Q s :=
  alone_writeTrust rfl (.refl _) (fun h => h.congr rfl rfl rfl) (hs.congr rfl rfl)

theorem alone_invalidDevice (hs : NoneAhead s) (identity : PeerIdentityPublic) :
    (invalidDevice s.trust identity : P β).Safe (aloneRules X) Q s :=
  alone_persistBlocked hs _ _ _

theorem alone_forkGate (hs : NoneAhead s) : forkGate.Safe (aloneRules X) (fun _ u => u = s) s := by
  refine alone_read rfl hs fun (forked : Bool) _ => ?_
  exact Proc.safe_check (fun _ => hs) fun _ => rfl

/-! ### Reading the log -/

/-- What was verified runs on from the head without a gap. -/
structure Reading (X : Ctx) (head : Option Nat) (cursor : LogCursor) : Prop where
  next : cursor.expectedSequence = head.elim 0 (· + 1) + cursor.verified.length
  sequences : cursor.verified.map (·.sequence) =
    List.range' (head.elim 0 (· + 1)) cursor.verified.length
  hashes : ∀ r ∈ cursor.verified, r.hash = X.crypto.recordHash r.blob
  last : (cursor.verified = [] ∧ cursor.after = head) ∨
    ∃ r, cursor.verified.getLast? = some r ∧ cursor.after = some r.sequence ∧
      cursor.expectedSequence = r.sequence + 1

variable {devices : List PeerPublicDevice} {cursor : LogCursor} {advertised : Nat}
  {identity : PeerIdentityPublic}

theorem Reading.start (previous : Option ContactTrustRecord) :
    Reading X (previous.bind (·.logHeadSequence)) (LogCursor.start previous) :=
  ⟨rfl, rfl, fun _ hr => absurd hr List.not_mem_nil, Or.inl ⟨rfl, rfl⟩⟩

variable (hs : NoneAhead s)
include hs

theorem alone_inspectRecord (h : Reading X s.head cursor) (record : PeerDeviceLogRecord) :
    (inspectRecord X s.trust identity devices advertised cursor record).Safe (aloneRules X)
      (fun c u => u = s ∧ Reading X s.head c) s := by
  unfold inspectRecord
  split
  · exact alone_persistBlocked hs _ _ _
  · next hsequence =>
    split
    · exact alone_persistBlocked hs _ _ _
    · split
      · exact alone_persistBlocked hs _ _ _
      · have hlast : cursor.expectedSequence + 1 = record.sequence + 1 := by
          rw [not_not.mp hsequence]
        refine ⟨rfl, ⟨?_, ?_, ?_, Or.inr ⟨_, List.getLast?_concat, rfl, hlast⟩⟩⟩
        · simp only [List.length_append, List.length_singleton, h.next]
          omega
        · rw [List.map_append, h.sequences, List.length_append, List.length_singleton,
            List.range'_1_concat, ← h.next, List.map_singleton, not_not.mp hsequence]
        · intro r hr
          rcases List.mem_append.mp hr with hr | hr
          · exact h.hashes r hr
          · rw [List.mem_singleton.mp hr]

theorem alone_inspectRecords (records : List PeerDeviceLogRecord) (h : Reading X s.head cursor) :
    (inspectRecords X s.trust identity devices advertised cursor records).Safe (aloneRules X)
      (fun c u => u = s ∧ Reading X s.head c) s := by
  induction records generalizing cursor with
  | nil => exact ⟨rfl, h⟩
  | cons record records ih =>
    refine Proc.Safe.bind ((alone_inspectRecord hs h record).mono ?_)
    rintro c u ⟨rfl, hc⟩
    exact ih hc

theorem alone_readPages (pages : Nat) (h : Reading X s.head cursor) :
    (readPages X s.trust identity devices advertised pages cursor).Safe (aloneRules X)
      (fun c u => u = s ∧ Reading X s.head c) s := by
  induction pages generalizing cursor with
  | zero => exact hs
  | succ pages ih =>
    refine alone_read rfl hs fun page _ => ?_
    split
    · exact alone_persistBlocked hs _ _ _
    · refine Proc.Safe.bind ((alone_inspectRecords hs page.records h).mono ?_)
      rintro c u ⟨rfl, hc⟩
      split
      · exact ih hc
      · exact ⟨rfl, hc⟩

theorem alone_readLog (hle : HeadLe s.head (some advertised)) (pages : Nat) :
    (readLog X s.trust identity devices advertised pages).Safe (aloneRules X)
      (fun c u => u = s ∧ Reading X s.head c ∧ c.after = some advertised) s := by
  unfold readLog
  simp only
  split
  · refine Proc.Safe.bind ((alone_readPages hs pages (Reading.start s.trust)).mono ?_)
    rintro c u ⟨rfl, hc⟩
    split
    · exact alone_persistBlocked hs _ _ _
    · next hafter => exact ⟨rfl, hc, not_not.mp hafter⟩
  · next hall =>
    refine ⟨rfl, Reading.start s.trust, ?_⟩
    change s.head = some advertised
    replace hall : ¬ s.head.all (· < advertised) = true := hall
    cases hn : s.head with
    | none => simp [hn] at hall
    | some n =>
      obtain ⟨m, hm, hnm⟩ := hle n hn
      cases hm
      simp only [hn, Option.all_some, decide_eq_true_eq] at hall
      congr 1
      omega

/-! ### Claiming and accepting -/

theorem alone_checkClaimed (identity : PeerIdentityPublic)
    (devices : List PeerPublicDevice) (claimed : List ClaimedPrekeyBundle) (deviceId : Uuid) :
    (checkClaimed X s.trust identity devices claimed deviceId).Safe (aloneRules X)
      (fun _ u => u = s) s := by
  unfold checkClaimed
  split
  · split
    · exact alone_invalidDevice hs identity
    · split
      · exact alone_invalidDevice hs identity
      · exact rfl
  · exact alone_invalidDevice hs identity
  · exact hs

theorem alone_checkAllClaimed (identity : PeerIdentityPublic)
    (devices : List PeerPublicDevice) (claimed : List ClaimedPrekeyBundle) (deviceIds : List Uuid) :
    (checkAllClaimed X s.trust identity devices claimed deviceIds).Safe (aloneRules X)
      (fun _ u => u = s) s := by
  induction deviceIds with
  | nil => exact rfl
  | cons deviceId deviceIds ih =>
    refine Proc.Safe.bind ((alone_checkClaimed hs identity devices claimed deviceId).mono ?_)
    rintro _ u rfl
    exact ih

theorem alone_claimBundles (identity : PeerIdentityPublic)
    (devices : List PeerPublicDevice) (claimDeviceIds : Option (List Uuid)) :
    (claimBundles X s.trust identity devices claimDeviceIds).Safe (aloneRules X)
      (fun _ u => u = s) s := by
  unfold claimBundles
  simp only
  split
  · exact alone_invalidDevice hs identity
  · refine alone_read rfl hs fun claimed _ => ?_
    split
    · exact alone_invalidDevice hs identity
    · refine Proc.Safe.bind ((alone_checkAllClaimed hs identity devices claimed _).mono ?_)
      rintro _ u rfl
      exact rfl

omit hs

theorem Reading.distinct (h : Reading X s.head cursor) (hs : NoneAhead s)
    (hdistinct : (s.records.map (·.sequence)).Nodup) :
    ((s.records ++ cursor.verified).map (·.sequence)).Nodup := by
  rw [List.map_append, List.nodup_append]
  refine ⟨hdistinct, ?_, fun a ha b hb => ?_⟩
  · rw [h.sequences]
    exact List.nodup_range'
  · obtain ⟨record, hrecord, rfl⟩ := List.mem_map.mp ha
    obtain ⟨n, hn, hle⟩ := hs record hrecord
    rw [h.sequences, hn, List.mem_range'_1, Option.elim_some] at hb
    omega

def acceptedStore (s : ContactStore) (trust : ContactTrustRecord) (devices : List PeerPublicDevice)
    (verified : List VerifiedDeviceLogRecord) : ContactStore :=
  ⟨some trust, devices, s.records ++ verified⟩

theorem Reading.last_sequence {head : Option Nat}
    (h : Reading X head cursor) (hafter : cursor.after = some advertised) :
    (cursor.verified = [] ∧ head = some advertised) ∨
      ∃ r ∈ cursor.verified, cursor.verified.getLast? = some r ∧ r.sequence = advertised ∧
        cursor.expectedSequence = r.sequence + 1 := by
  rcases h.last with ⟨hnil, hsame⟩ | ⟨r, hr, hsame, hnext⟩
  · exact Or.inl ⟨hnil, hsame ▸ hafter⟩
  · have hsequence : r.sequence = advertised := Option.some.inj (hsame.symm.trans hafter)
    exact Or.inr ⟨r, List.mem_of_getLast? hr, hr, hsequence, hnext⟩

theorem accepted_headStored (hinv : HeadStored X s) (hs : NoneAhead s)
    (h : Reading X s.head cursor) (hafter : cursor.after = some advertised)
    (hhead : trust.logHeadSequence = some advertised)
    (hhash : trust.logHeadHash = match cursor.verified.getLast? with
      | none => s.headHash
      | some r => some r.hash) :
    HeadStored X (acceptedStore s trust devices cursor.verified) := by
  refine ⟨h.distinct hs hinv.distinct, fun n hn => ?_⟩
  cases hhead.symm.trans hn
  rcases h.last_sequence hafter with ⟨hnil, hsame⟩ | ⟨r, hr, hlast, hsequence, _⟩
  · obtain ⟨record, hrecord, hrest⟩ := hinv.stored advertised hsame
    refine ⟨record, List.mem_append_left _ hrecord, hrest.1, hrest.2.1, ?_⟩
    rw [hnil] at hhash
    exact hhash.trans hrest.2.2
  · refine ⟨r, List.mem_append_right _ hr, hsequence, h.hashes r hr, ?_⟩
    rw [hlast] at hhash
    exact hhash

theorem accepted_noneAhead (hs : NoneAhead s) (hle : HeadLe s.head (some advertised))
    (h : Reading X s.head cursor) (hafter : cursor.after = some advertised)
    (hhead : trust.logHeadSequence = some advertised) :
    NoneAhead (acceptedStore s trust devices cursor.verified) := by
  intro record hrecord
  refine ⟨advertised, hhead, ?_⟩
  rcases List.mem_append.mp hrecord with hrecord | hrecord
  · obtain ⟨n, hn, hsn⟩ := hs record hrecord
    obtain ⟨m, hm, hnm⟩ := hle n hn
    cases hm
    omega
  · rcases h.last_sequence hafter with ⟨hnil, _⟩ | ⟨r, _, _, hsequence, hnext⟩
    · rw [hnil] at hrecord
      exact absurd hrecord List.not_mem_nil
    · have hmem : record.sequence ∈ cursor.verified.map (·.sequence) := List.mem_map_of_mem hrecord
      rw [h.sequences, List.mem_range'_1] at hmem
      have := h.next
      omega

theorem alone_storeAccepted (trust : ContactTrustRecord)
    (hs : NoneAhead s) (hle : HeadLe s.head (some advertised)) (h : Reading X s.head cursor)
    (hafter : cursor.after = some advertised) (hconfirmed : trust.confirmedMasterPublic = s.confirmed)
    (hhead : trust.logHeadSequence = some advertised)
    (hhash : trust.logHeadHash = match cursor.verified.getLast? with
      | none => s.headHash
      | some r => some r.hash) (devices : List PeerPublicDevice)
    (claimed : List ClaimedPrekeyBundle) :
    (storeAccepted trust devices cursor.verified claimed).Safe (aloneRules X)
      (fun p u => NoneAhead u ∧ u.trust = some p.trust ∧ p.trust = trust) s := by
  rintro t rfl hinv a u ⟨hc, _⟩
  cases a with
  | error e =>
    obtain rfl : u = s := hc
    exact ⟨hinv, guar_refl X u, hs⟩
  | ok v =>
    obtain rfl : u = { s with devices := devices } := hc
    refine ⟨hinv.congr rfl rfl rfl, ⟨.refl _, rfl⟩, ?_⟩
    rintro t rfl _ a u ⟨hc, _⟩
    cases a with
    | error e =>
      obtain rfl : u = { s with devices := devices } := hc
      exact ⟨hinv.congr rfl rfl rfl, guar_refl X _, hs.congr rfl rfl⟩
    | ok v =>
      have hnew := foldl_insertOrIgnore (h.distinct hs hinv.distinct)
      obtain rfl : u = ⟨s.trust, devices, s.records ++ cursor.verified⟩ := by
        rw [← hnew]
        exact hc
      -- the head is still the old one, and its record is still there
      have hstored : HeadStored X ⟨s.trust, devices, s.records ++ cursor.verified⟩ := by
        refine ⟨h.distinct hs hinv.distinct, fun n hn => ?_⟩
        obtain ⟨record, hrecord, hrest⟩ := hinv.stored n hn
        exact ⟨record, List.mem_append_left _ hrecord, hrest⟩
      refine ⟨hstored, ⟨.refl _, rfl⟩, ?_⟩
      refine alone_writeTrust hconfirmed (hhead ▸ hle)
        (fun _ => accepted_headStored hinv hs h hafter hhead hhash) ?_
      exact ⟨accepted_noneAhead hs hle h hafter hhead, rfl, rfl⟩

/-! ### The calls -/

def Accepted (identity : PeerIdentityPublic) (p : AuthenticatedPeer) (u : ContactStore) : Prop :=
  NoneAhead u ∧ u.trust = some p.trust ∧ p.trust.identity = some identity

variable (args : RefreshArgs)

theorem alone_refreshDevices (hs : NoneAhead s) (pages : Nat)
    (identity : PeerIdentityPublic) (identityTag : Option String) (cached : List PeerPublicDevice)
    (read : DeviceRead) :
    (refreshDevices X args s.trust pages identity identityTag cached read).Safe (aloneRules X)
      (Accepted identity) s := by
  unfold refreshDevices
  split
  · exact alone_persistBlocked hs _ _ _
  · split
    · exact alone_persistBlocked hs _ _ _
    · next advertised _ =>
      split
      · exact alone_persistBlocked hs _ _ _
      · next hback =>
        have hle : HeadLe s.head (some advertised) := by
          intro n hn
          refine ⟨advertised, rfl, ?_⟩
          replace hback : ¬ s.head.any (advertised < ·) = true := hback
          simpa [hn] using hback
        split
        · exact alone_invalidDevice hs identity
        · split
          · exact hs
          · refine Proc.Safe.bind ((alone_readLog hs hle pages).mono ?_)
            rintro cursor u ⟨rfl, hreading, hafter⟩
            have hstore : ∀ claimed, (storeAccepted (acceptedRecord X args u.trust identity
                identityTag read advertised cursor.verified) read.devices cursor.verified
                claimed).Safe (aloneRules X) (Accepted identity) u := by
              intro claimed
              refine (alone_storeAccepted _ hs hle hreading hafter rfl rfl rfl _ claimed).mono ?_
              rintro p v ⟨hnone, hstored, htrust⟩
              exact ⟨hnone, hstored, htrust ▸ rfl⟩
            split
            · refine Proc.Safe.bind ((alone_claimBundles hs identity _ _).mono ?_)
              rintro claimed v rfl
              exact hstore claimed
            · exact hstore []

theorem alone_refreshIdentity (hs : NoneAhead s) (pages : Nat)
    (identity : PeerIdentityPublic) (identityTag : Option String) :
    (refreshIdentity X args s.trust pages identity identityTag).Safe (aloneRules X)
      (fun p u => Accepted identity p u ∧ (args.allowMasterReplacement = false →
        ∀ m, s.confirmed = some m → identity.masterPublic = m)) s := by
  unfold refreshIdentity
  split
  · exact alone_persistBlocked hs _ _ _
  · split
    · exact hs
    · split
      · next r hr =>
        obtain ⟨hprevious, _⟩ := Option.filter_eq_some_iff.mp hr
        have htrust := hprevious
        exact alone_writeTrust (by simp [ContactStore.confirmed, htrust, changedRecord])
          (by simpa [ContactStore.head, htrust, changedRecord] using HeadLe.refl _)
          (fun h => h.congr rfl (by simp [ContactStore.head, htrust, changedRecord])
            (by simp [ContactStore.headHash, htrust, changedRecord]))
          (hs.congr rfl (by simp [ContactStore.head, htrust, changedRecord]))
      · next hsame =>
        have hmaster : args.allowMasterReplacement = false →
            ∀ m, s.confirmed = some m → identity.masterPublic = m := by
          intro hallow m hm
          obtain ⟨r, hr, hrm⟩ := Option.bind_eq_some_iff.mp hm
          by_contra hne
          rw [hr] at hsame
          simp [hallow, hrm, Ne.symm hne] at hsame
        have hdevices := fun cached read => (alone_refreshDevices (X := X) args hs pages identity
          identityTag cached read).mono fun _ _ hp => And.intro hp hmaster
        refine alone_read rfl hs fun cached _ => ?_
        split
        · refine Proc.Safe.bind (Proc.safe_ofExcept (fun _ _ => hs) fun read _ => ?_)
          exact hdevices cached read
        · refine alone_read rfl hs fun answer _ => ?_
          exact hdevices cached _

/-- What a successful call leaves and returns, while `confirmed` is the confirmed key. -/
structure Refreshed (confirmed : Option Bytes) (args : RefreshArgs) (p : AuthenticatedPeer)
    (u : ContactStore) : Prop where
  noneAhead : NoneAhead u
  stored : u.trust = some p.trust
  master : args.allowMasterReplacement = false → ∀ m, confirmed = some m →
    p.trust.identity.map (·.masterPublic) = some m

theorem alone_refreshRead (hs : NoneAhead s) (pages : Nat) (read : Except Failure IdentityRead) :
    (refreshRead X args s.trust pages read).Safe (aloneRules X) (Refreshed s.confirmed args) s := by
  match read with
  | .error e => exact alone_persistBlocked hs _ _ _
  | .ok (identity, identityTag) =>
    refine (alone_refreshIdentity args hs pages identity identityTag).mono ?_
    rintro p u ⟨⟨hnone, hstored, hidentity⟩, hmaster⟩
    refine ⟨hnone, hstored, fun hallow m hm => ?_⟩
    rw [hidentity, Option.map_some, hmaster hallow m hm]

theorem alone_refresh (hbatched : ∀ b, args.batched = some b → b.1 = s.trust)
    (hs : NoneAhead s) (pages : Nat) :
    (refresh X args pages).Safe (aloneRules X) (Refreshed s.confirmed args) s := by
  have hungated : (refreshUngated X args pages).Safe (aloneRules X)
    (Refreshed s.confirmed args) s := by
    unfold refreshUngated
    split
    · next previous read hb =>
      obtain rfl : previous = s.trust := hbatched _ hb
      exact alone_refreshRead args hs pages _
    · refine alone_read rfl hs fun previous hprevious => ?_
      obtain rfl : previous = s.trust := hprevious.1
      exact alone_ask rfl fun answer _ => alone_refreshRead args hs pages _
  unfold refresh
  split
  · refine Proc.Safe.bind ((alone_forkGate hs).mono ?_)
    rintro _ u rfl
    exact hungated
  · exact hungated

/-- What a call that confirms nothing leaves and returns, while `confirmed` is the confirmed key. -/
def Ended (confirmed : Option Bytes) (r : ContactTrustRecord) (u : ContactStore) : Prop :=
  NoneAhead u ∧ ∀ m, confirmed = some m → r.identity.map (·.masterPublic) = some m

theorem alone_process (hs : NoneAhead s) {entry : Entry} (hentry : ∀ m, entry ≠ .confirmOutOfBand m)
    (pages : Nat) :
    (entry.process X pages).Safe (aloneRules X) (Ended s.confirmed) s := by
  have hrefresh : ∀ args : RefreshArgs, (∀ b, args.batched = some b → b.1 = s.trust) →
      args.allowMasterReplacement = false → (refresh X args pages >>= fun p => pure p.trust).Safe
        (aloneRules X) (Ended s.confirmed) s := fun args hbatched hallow =>
    Proc.Safe.bind ((alone_refresh args hbatched hs pages).mono fun p u hp =>
      ⟨hp.noneAhead, hp.master hallow⟩)
  cases entry with
  | refreshPeer requirePrekeys => exact hrefresh _ (fun _ hb => by cases hb) rfl
  | refreshPeerForDevices deviceIds =>
    exact Proc.Safe.bind (Proc.safe_check (fun _ => hs) fun _ =>
      hrefresh _ (fun _ hb => by cases hb) rfl)
  | resolveLiveDevices =>
    refine Proc.Safe.bind ((alone_forkGate hs).mono ?_)
    rintro _ u rfl
    exact hrefresh _ (fun _ hb => by cases hb) rfl
  | resolveLiveDevicesForUsers =>
    refine Proc.Safe.bind (Proc.Safe.bind ((alone_forkGate hs).mono ?_))
    rintro _ u rfl
    refine alone_read rfl hs fun previous hprevious => ?_
    obtain rfl : previous = u.trust := hprevious.1
    refine alone_read rfl hs fun read _ => Proc.Safe.bind ((alone_forkGate hs).mono ?_)
    rintro _ v rfl
    refine (alone_refresh _ (fun b hb => ?_) hs pages).mono fun p w hp =>
      ⟨hp.noneAhead, hp.master rfl⟩
    rw [← Option.some.inj hb]
  | confirmOutOfBand m => exact absurd rfl (hentry m)

end Alone

/-! ## Every run -/

section Run

variable {X : Ctx} {s u : ContactStore} {run run' : TrustRun} {r : Running}

/-- A call under way. A confirmation first refreshes and then writes the confirmed record; only that
last write changes the key. -/
inductive Under (X : Ctx) (s : ContactStore) : Running → Prop
  | refreshing {entry : Entry} {since : Option Bytes} {p : P ContactTrustRecord}
    (hentry : ∀ m, entry ≠ .confirmOutOfBand m) (h : p.Safe (aloneRules X) (Ended since) s) :
    Under X s ⟨entry, since, p⟩
  | confirming {m : Bytes} {since : Option Bytes} {q : P AuthenticatedPeer}
    (h : q.Safe (aloneRules X) (fun p u => NoneAhead u ∧ u.trust = some p.trust) s) :
    Under X s ⟨.confirmOutOfBand m, since, q >>= confirmRefreshed X m⟩
  | writing {m : Bytes} {since : Option Bytes} {trust : ContactTrustRecord} (hs : NoneAhead s)
    (hconfirmed : trust.confirmedMasterPublic = some m) (hhead : trust.logHeadSequence = s.head)
    (hhash : trust.logHeadHash = s.headHash) :
    Under X s ⟨.confirmOutOfBand m, since, writeConfirmed trust⟩

theorem confirmRefreshed_cases (X : Ctx) (m : Bytes) (p : AuthenticatedPeer) :
    (∃ e, confirmRefreshed X m p = .fail e) ∨
      ∃ trust, confirmRefreshed X m p = writeConfirmed trust ∧
        trust.confirmedMasterPublic = some m ∧ trust.logHeadSequence = p.trust.logHeadSequence ∧
        trust.logHeadHash = p.trust.logHeadHash := by
  unfold confirmRefreshed
  split
  · exact Or.inl ⟨_, rfl⟩
  · next identity _ =>
    by_cases hm : identity.masterPublic = m
    · rw [Proc.check, if_pos hm]
      cases X.crypto.attestPeerMaster identity.masterPublic with
      | error e => exact Or.inl ⟨e, rfl⟩
      | ok attestation =>
        exact Or.inr ⟨confirmedRecord p identity attestation, rfl, congrArg some hm, rfl, rfl⟩
    · rw [Proc.check, if_neg hm]
      exact Or.inl ⟨_, rfl⟩

theorem confirmRefreshed_stored (m : Bytes) {p : AuthenticatedPeer} (hp : s.trust = some p.trust) :
    (∃ e, confirmRefreshed X m p = .fail e) ∨
      ∃ trust, confirmRefreshed X m p = writeConfirmed trust ∧
        trust.confirmedMasterPublic = some m ∧ trust.logHeadSequence = s.head ∧
        trust.logHeadHash = s.headHash := by
  refine (confirmRefreshed_cases X m p).imp id ?_
  rintro ⟨trust, hrest, hconfirmed, hhead, hhash⟩
  refine ⟨trust, hrest, hconfirmed, hhead.trans ?_, hhash.trans ?_⟩
  · rw [ContactStore.head, hp, Option.bind_some]
  · rw [ContactStore.headHash, hp, Option.bind_some]

theorem Under.over (h : Under X s r) :
    (∀ record, r.process = .ret record → (∀ m, r.entry ≠ .confirmOutOfBand m) ∧
      Ended r.since record s) ∧ ∀ e, r.process = .fail e → NoneAhead s := by
  cases h with
  | refreshing hentry h =>
    refine ⟨fun record hp => ⟨hentry, ?_⟩, fun e hp => ?_⟩ <;>
    · subst hp
      exact h
  | @confirming m since q h =>
    cases q with
    | ret p =>
      obtain ⟨hs, hp⟩ := h
      rcases confirmRefreshed_stored (X := X) m hp with ⟨e, he⟩ | ⟨_, hw, _⟩
      · refine ⟨fun record hret => ?_, fun _ _ => hs⟩
        cases he.symm.trans hret
      · refine ⟨fun record hret => ?_, fun _ _ => hs⟩
        cases hw.symm.trans hret
    | fail e => exact ⟨fun record hret => (by cases hret), fun _ _ => h⟩
    | ask c k => exact ⟨fun record hret => (by cases hret), fun e hfail => (by cases hfail)⟩
  | writing => exact ⟨fun record hret => (by cases hret), fun e hfail => (by cases hfail)⟩

variable {a : Answer c} {k : Answer c → P ContactTrustRecord}

theorem writeConfirmed_call {m : Bytes} (hinv : HeadStored X s) (hs : NoneAhead s)
    (hconfirmed : trust.confirmedMasterPublic = some m) (hhead : trust.logHeadSequence = s.head)
    (hhash : trust.logHeadHash = s.headHash) (hk : writeConfirmed trust = .ask c k)
    (hc : storeCalls c s a u) (hok : trustStored c a) :
    HeadStored X u ∧ HeadLe s.head u.head ∧ k a = .ret trust ∧ u.confirmed = some m ∧
      NoneAhead u := by
  obtain ⟨rfl, hk⟩ := Proc.ask.inj hk
  cases hk
  obtain rfl : a = .ok () := hok
  obtain rfl : u = { s with trust := some trust } := hc
  exact ⟨hinv.congr rfl hhead hhash, hhead ▸ .refl _, rfl, hconfirmed, hs.congr rfl hhead⟩

theorem Under.call (h : Under X s r) (hinv : HeadStored X s) (hk : r.process = .ask c k)
    (hc : storeCalls c s a u) (hok : trustStored c a) :
    HeadStored X u ∧ HeadLe s.head u.head ∧
      ((u.confirmed = s.confirmed ∧ Under X u { r with process := k a }) ∨
        ∃ m trust, r.entry = .confirmOutOfBand m ∧ k a = .ret trust ∧ u.confirmed = some m ∧
          NoneAhead u) := by
  cases h with
  | refreshing hentry h =>
    subst hk
    obtain ⟨hinv', ⟨hle, hsame⟩, hrest⟩ := h.advance hinv ⟨hc, hok⟩
    exact ⟨hinv', hle, Or.inl ⟨hsame, .refreshing hentry hrest⟩⟩
  | @confirming m since q h =>
    cases q with
    | ret p =>
      obtain ⟨hs, hp⟩ := h
      rcases confirmRefreshed_stored (X := X) m hp with ⟨e, he⟩ |
        ⟨trust, hw, hconfirmed, hhead, hhash⟩
      · cases he.symm.trans hk
      · obtain ⟨hinv', hle, hret, hm, hnone⟩ := writeConfirmed_call hinv hs hconfirmed hhead hhash
          (hw.symm.trans hk) hc hok
        exact ⟨hinv', hle, Or.inr ⟨m, trust, rfl, hret, hm, hnone⟩⟩
    | fail e => cases hk
    | ask c' k' =>
      obtain ⟨rfl, hk⟩ := Proc.ask.inj hk
      cases hk
      obtain ⟨hinv', ⟨hle, hsame⟩, hrest⟩ := h.advance hinv ⟨hc, hok⟩
      exact ⟨hinv', hle, Or.inl ⟨hsame, .confirming hrest⟩⟩
  | @writing m since trust hs hconfirmed hhead hhash =>
    obtain ⟨hinv', hle, hret, hm, hnone⟩ := writeConfirmed_call hinv hs hconfirmed hhead hhash
      hk hc hok
    exact ⟨hinv', hle, Or.inr ⟨m, trust, rfl, hret, hm, hnone⟩⟩

/-- At most one call is under way, and the stored key is the confirmed one. -/
structure TrustInv (X : Ctx) (run : TrustRun) : Prop where
  stored : HeadStored X run.store
  confirmed : run.store.confirmed = run.confirmed
  running : (run.running = [] ∧ NoneAhead run.store) ∨
    ∃ r, run.running = [r] ∧ Under X run.store r
  successes : ∀ x ∈ run.successes, (∀ m, x.entry ≠ .confirmOutOfBand m) →
    ∀ m, x.since = some m → x.record.identity.map (·.masterPublic) = some m

theorem Entry.confirms_of_ne {entry : Entry} (h : ∀ m, entry ≠ .confirmOutOfBand m)
    (confirmed : Option Bytes) : entry.confirms confirmed = confirmed := by
  cases entry with
  | confirmOutOfBand m => exact absurd rfl (h m)
  | _ => rfl

variable (hstored : HeadStored X run.store) (hidle : run.running = [])
  (hsuccesses : ∀ x ∈ run.successes, (∀ m, x.entry ≠ .confirmOutOfBand m) →
    ∀ m, x.since = some m → x.record.identity.map (·.masterPublic) = some m)
include hstored hidle hsuccesses

theorem TrustInv.settle (hconfirmed : run.store.confirmed = run.confirmed) (h : Under X run.store r) :
    TrustInv X (run.settle r) := by
  unfold TrustRun.settle
  split
  · next record hret =>
    obtain ⟨hentry, hnone, hmaster⟩ := h.over.1 record hret
    refine ⟨hstored, ?_, Or.inl ⟨hidle, hnone⟩, fun x hx => ?_⟩
    · exact hconfirmed.trans (Entry.confirms_of_ne hentry _).symm
    · rcases List.mem_append.mp hx with hx | hx
      · exact hsuccesses x hx
      · rw [List.mem_singleton.mp hx]
        exact fun _ => hmaster
  · next e hfail => exact ⟨hstored, hconfirmed, Or.inl ⟨hidle, h.over.2 e hfail⟩, hsuccesses⟩
  · refine ⟨hstored, hconfirmed, Or.inr ⟨r, ?_, h⟩, hsuccesses⟩
    rw [hidle, List.nil_append]

theorem TrustInv.settle_confirmed {m : Bytes} (hentry : r.entry = .confirmOutOfBand m)
    (hret : r.process = .ret trust) (hconfirmed : run.store.confirmed = some m)
    (hnone : NoneAhead run.store) :
    TrustInv X (run.settle r) := by
  unfold TrustRun.settle
  rw [hret]
  refine ⟨hstored, ?_, Or.inl ⟨hidle, hnone⟩, fun x hx hother => ?_⟩
  · rw [hentry]
    exact hconfirmed
  · rcases List.mem_append.mp hx with hx | hx
    · exact hsuccesses x hx hother
    · rw [List.mem_singleton.mp hx] at hother
      exact absurd hentry (hother m)

omit hstored hidle hsuccesses

theorem settle_store (run : TrustRun) (r : Running) : (run.settle r).store = run.store := by
  unfold TrustRun.settle
  split <;> rfl

theorem under_start (hs : NoneAhead s) (entry : Entry) (pages : Nat) :
    Under X s ⟨entry, s.confirmed, entry.process X pages⟩ := by
  by_cases hentry : ∀ m, entry ≠ .confirmOutOfBand m
  · exact .refreshing hentry (alone_process hs hentry pages)
  · obtain ⟨m, rfl⟩ := not_forall_not.mp hentry
    refine .confirming ((alone_refresh _ (fun b hb => by cases hb) hs pages).mono fun p u hp => ?_)
    exact ⟨hp.noneAhead, hp.stored⟩

theorem TrustInv.step (h : TrustInv X run) (hstep : TrustStep X True run run') :
    TrustInv X run' ∧ HeadLe run.store.head run'.store.head := by
  cases hstep with
  | start entry pages halone =>
    have hidle := halone trivial
    have hnone : NoneAhead run.store := by
      rcases h.running with ⟨_, hnone⟩ | ⟨r, hr, _⟩
      · exact hnone
      · rw [hidle] at hr
        cases hr
    rw [settle_store, ← h.confirmed]
    exact ⟨.settle h.stored hidle h.successes h.confirmed (under_start hnone entry pages), .refl _⟩
  | @call i r c k a store hr hk hc hok =>
    rcases h.running with ⟨hidle, _⟩ | ⟨r', hrunning, hunder⟩
    · rw [hidle] at hr
      cases hr
    · rw [hrunning, List.getElem?_singleton] at hr
      obtain ⟨hi, rfl⟩ := Option.ite_none_right_eq_some.mp hr |>.imp id Option.some.inj
      have herase : run.running.eraseIdx i = [] := by
        rw [hrunning, hi]
        rfl
      rw [settle_store]
      obtain ⟨hstored, hle, hcase⟩ := hunder.call h.stored hk hc (hok trivial)
      refine ⟨?_, hle⟩
      rcases hcase with ⟨hsame, hrest⟩ | ⟨m, trust, hentry, hret, hm, hnone⟩
      · exact .settle hstored herase h.successes (hsame.trans h.confirmed) hrest
      · exact .settle_confirmed hstored herase h.successes hentry hret hm hnone

theorem trust_inductive (X : Ctx) : (trustSystem X True).Inductive (TrustInv X) where
  init run h := by
    obtain rfl : run = ⟨⟨none, [], []⟩, none, [], []⟩ := h
    refine ⟨⟨List.nodup_nil, fun n hn => by cases hn⟩, rfl, Or.inl ⟨rfl, ?_⟩, ?_⟩
    · exact fun record hrecord => absurd hrecord List.not_mem_nil
    · exact fun x hx => absurd hx List.not_mem_nil
  step _ _ h hstep := (h.step hstep).1

def TrustRun.finish (run : TrustRun) (f : (c : Call) → ContactStore → Answer c × ContactStore)
    (r : Running) : TrustRun :=
  match r.process.run f run.store with
  | (.ok record, store) => { run with
      store := store
      confirmed := r.entry.confirms run.confirmed
      successes := run.successes ++ [⟨r.entry, r.since, record⟩] }
  | (.error _, store) => { run with store := store }

theorem steps_finish (X : Ctx) (apart : Prop)
    (f : (c : Call) → ContactStore → Answer c × ContactStore)
    (hf : ∀ c s, storeCalls c s (f c s).1 (f c s).2 ∧ trustStored c (f c s).1)
    (entry : Entry) (since : Option Bytes) (p : P ContactTrustRecord) (run : TrustRun) :
    Relation.ReflTransGen (trustSystem X apart).step (run.settle ⟨entry, since, p⟩)
      (run.finish f ⟨entry, since, p⟩) := by
  induction p generalizing run with
  | ret record | fail e => exact .refl
  | ask c k ih =>
    obtain ⟨hc, hok⟩ := hf c run.store
    have hr : (run.settle ⟨entry, since, .ask c k⟩).running[run.running.length]? =
        some ⟨entry, since, .ask c k⟩ := List.getElem?_concat_length ..
    have hstep : TrustStep X apart _ _ := .call hr rfl hc fun _ => hok
    have herase : (run.settle ⟨entry, since, .ask c k⟩).running.eraseIdx run.running.length =
        run.running := by
      simp [TrustRun.settle, List.eraseIdx_append_of_length_le]
    rw [herase] at hstep
    exact .head hstep (ih (f c run.store).1 { run with store := (f c run.store).2 })

def answerFor (log : List Landed) (c : Call) (s : ContactStore) : Answer c × ContactStore :=
  ((honestAnswer lengthPeer c ⟨log, s⟩).1, (honestAnswer lengthPeer c ⟨log, s⟩).2.store)

theorem answerFor_calls (log : List Landed) (c : Call) (s : ContactStore) :
    storeCalls c s (answerFor log c s).1 (answerFor log c s).2 ∧
      trustStored c (answerFor log c s).1 := by
  have hcalls : (honestWorld lengthCtx lengthPeer fun _ _ => True).calls c ⟨log, s⟩ _ _ :=
    honestAnswer_calls lengthCtx lengthPeer trivial
  exact ⟨hcalls.2.2.1, by cases c <;> first | exact rfl | trivial⟩

def firstLog : List Landed := [nextLanded []]

def secondLog : List Landed := firstLog ++ [nextLanded firstLog]

def emptyRun : TrustRun := ⟨⟨none, [], []⟩, none, [], []⟩

def waitingRefresh : Running where
  entry := .refreshPeer false
  since := none
  process := do
    let answer ← Remote.fetchIdentity none
    let peer ← refreshRead lengthCtx ⟨false, none, false, none⟩ none 1 (identityOf none answer)
    return peer.trust

def confirmedRun : TrustRun :=
  { emptyRun with running := [waitingRefresh] }.finish (answerFor secondLog)
    ⟨.confirmOutOfBand [5], none, (Entry.confirmOutOfBand [5]).process lengthCtx 1⟩

/-- **Peer trust does not regress** while calls about the peer do not overlap and writes of its
record succeed: the stored key is the one of the last confirmation, no call that began under it
returns another, the head never goes back, and its hash is the one of the stored record. -/
theorem trust_never_regresses (X : Ctx) {run : TrustRun} (h : (trustSystem X True).Reachable run) :
    (∀ m, run.confirmed = some m → run.store.confirmed = some m) ∧
    (∀ x ∈ run.successes, (∀ m, x.entry ≠ .confirmOutOfBand m) →
      ∀ m, x.since = some m → x.record.identity.map (·.masterPublic) = some m) ∧
    (∀ run', (trustSystem X True).step run run' → HeadLe run.store.head run'.store.head) ∧
    HeadStored X run.store := by
  have hinv := (trust_inductive X).reachable h
  exact ⟨fun m hm => hinv.confirmed.trans hm, hinv.successes,
    fun run' hstep => (hinv.step hstep).2, hinv.stored⟩

theorem reachable_finish {run : TrustRun} (log : List Landed) (entry : Entry)
    (h : (trustSystem lengthCtx True).Reachable run) (hidle : run.running = []) :
    (trustSystem lengthCtx True).Reachable
      (run.finish (answerFor log) ⟨entry, run.confirmed, entry.process lengthCtx 1⟩) :=
  (h.step (.start entry 1 fun _ => hidle)).steps
    (steps_finish lengthCtx True (answerFor log) (answerFor_calls log) entry run.confirmed _ run)

/-- A confirmation with nothing stored before it, and a refresh after another device landed. -/
theorem trust_never_regresses_confirmed : ∃ run, (trustSystem lengthCtx True).Reachable run ∧
    run.successes.length = 2 ∧ run.confirmed = some [5] ∧ run.store.confirmed = some [5] ∧
      run.store.head = some 1 := by
  have hinit : (trustSystem lengthCtx True).Reachable emptyRun := .init rfl
  have hconfirmed := reachable_finish firstLog (.confirmOutOfBand [5]) hinit rfl
  have hrefreshed := reachable_finish secondLog (.refreshPeer false) hconfirmed rfl
  exact ⟨_, hrefreshed, rfl, rfl, (trust_never_regresses lengthCtx hrefreshed).1 [5] rfl, rfl⟩

/-- A refresh reads the record (there is none). A confirmation runs from its first to its last step,
up to head 1. The refresh gets answers of the head before it and writes its record: the confirmed
key is gone, and the head is back at 0. -/
theorem overlapping_refresh_unconfirms : ∃ run run', (trustSystem lengthCtx False).Reachable run ∧
    Relation.ReflTransGen (trustSystem lengthCtx False).step run run' ∧
    run.confirmed = some [5] ∧ run.store.confirmed = some [5] ∧ run.store.head = some 1 ∧
    run'.confirmed = some [5] ∧ run'.store.confirmed = none ∧ run'.store.head = some 0 := by
  have hstart : TrustStep lengthCtx False emptyRun _ := .start (.refreshPeer false) 1 nofun
  have hread : TrustStep lengthCtx False (emptyRun.settle ⟨.refreshPeer false, none,
      (Entry.refreshPeer false).process lengthCtx 1⟩) _ :=
    .call (i := 0) (c := .readTrust) (a := .ok none) rfl rfl ⟨rfl, rfl⟩ False.elim
  have hconfirm : TrustStep lengthCtx False { emptyRun with running := [waitingRefresh] } _ :=
    .start (.confirmOutOfBand [5]) 1 nofun
  have hconfirmed := steps_finish lengthCtx False (answerFor secondLog) (answerFor_calls secondLog)
    (.confirmOutOfBand [5]) none ((Entry.confirmOutOfBand [5]).process lengthCtx 1)
    { emptyRun with running := [waitingRefresh] }
  have hrefreshed := steps_finish lengthCtx False (answerFor firstLog) (answerFor_calls firstLog)
    waitingRefresh.entry waitingRefresh.since waitingRefresh.process
    { confirmedRun with running := [] }
  have hinit : (trustSystem lengthCtx False).Reachable emptyRun := .init rfl
  have hr := (((hinit.step hstart).step hread).step hconfirm).steps hconfirmed
  exact ⟨confirmedRun, _, hr, hrefreshed, rfl, rfl, rfl, rfl, rfl, rfl⟩

end Run

end CommPlatform.Contacts
