import CommPlatform.L4Store.SessionOperations

/-!
# What a commit does to the sessions

The four commits differ in what they check and record around it, but each
applies an optional demotion, an optional erasure and one transition to the
two session rows. `Applied` says so once; the lemmas after it give the rows
before and after for the five kinds of change:

* `Applied.update`: compare and set on the primary, the alternate is dropped.
* `Applied.alternate`: a new alternate.
* `Applied.wins`: the primary is demoted and a new one installed.
* `Applied.replaces`: the primary is erased and a new one installed.
* `Applied.installs`: a new primary; a row that stands there becomes the
  alternate.
-/
namespace CommPlatform.L4

open CommPlatform.Core

variable {σ δ : Type}

namespace StoreCommit

def transition : StoreCommit σ δ → SessionTransition σ
  | .send c | .receive c => c.sessionTransition
  | .volatileSeal c => c.transition
  | .volatileOpen c => c.sessionTransition

def demoted : StoreCommit σ δ → Option (SessionTransition σ)
  | .send c | .receive c => c.demotedExistingSessionTransition
  | .volatileSeal _ => none
  | .volatileOpen c => c.demotedExistingSessionTransition

def replaced : StoreCommit σ δ → Option SessionId
  | .receive c => c.replacedSessionId
  | _ => none

def revision : StoreCommit σ δ → Option Nat
  | .send c => some c.expectedDeviceStateVersion
  | .receive c => c.deviceStateTransition.map (·.expectedStateVersion)
  | .volatileSeal c => some c.expectedDeviceStateVersion
  | .volatileOpen c => c.deviceStateTransition.map (·.expectedStateVersion)

def device : StoreCommit σ δ → Option (DeviceStateTransition δ)
  | .receive c | .volatileOpen c => c.deviceStateTransition
  | _ => none

def queued : StoreCommit σ δ → List OutboxRow
  | .send c => [⟨c.operationId, c.eventId, c.exactCiphertext⟩]
  | _ => []

end StoreCommit

/-- The sessions, the outbox, the device state and the bounds after a commit that wrote something. -/
structure Applied (L : StoreLimits) (db db' : SessionStore σ δ) (c : StoreCommit σ δ) : Prop where
  sessions : ∃ db₁ db₂ db₃, applyDemoted L db c.demoted = .ok db₁ ∧
    applyReplaced db₁ c.transition c.replaced = .ok db₂ ∧
    applySessionTransition L db₂ c.transition = .ok db₃ ∧
    db'.primary = db₃.primary ∧ db'.alternate = db₃.alternate
  revision : ∀ r, c.revision = some r → db.stateRevision = r
  device : ∀ t, c.device = some t → db'.stateRevision = t.nextStateVersion
  deviceKept : c.device = none →
    db'.stateRevision = db.stateRevision ∧ db'.deviceState = db.deviceState
  total : skippedKeyTotal db' ≤ L.maximumSkippedKeysPerAccount
  others : db'.otherSkippedKeys = db.otherSkippedKeys
  outbox : db'.outbox = db.outbox ++ c.queued

/-- The outbox already has exactly the rows of this send. -/
def AlreadyQueued (db : SessionStore σ δ) (c : StoreCommit σ δ) : Prop :=
  ∃ s, c = .send s ∧ db.outbox.filter (·.operationId = s.operationId) = c.queued

section Frames

variable {L : StoreLimits} {db db' : SessionStore σ δ} {t : SessionTransition σ}

structure SameRest (db db' : SessionStore σ δ) : Prop where
  deviceState : db'.deviceState = db.deviceState
  stateRevision : db'.stateRevision = db.stateRevision
  maintenancePending : db'.maintenancePending = db.maintenancePending
  outbox : db'.outbox = db.outbox
  otherSkippedKeys : db'.otherSkippedKeys = db.otherSkippedKeys

theorem SameRest.refl (db : SessionStore σ δ) : SameRest db db := ⟨rfl, rfl, rfl, rfl, rfl⟩

theorem SameRest.trans {db'' : SessionStore σ δ} (h : SameRest db db') (h' : SameRest db' db'') :
    SameRest db db'' :=
  ⟨h'.deviceState.trans h.deviceState, h'.stateRevision.trans h.stateRevision,
    h'.maintenancePending.trans h.maintenancePending, h'.outbox.trans h.outbox,
    h'.otherSkippedKeys.trans h.otherSkippedKeys⟩

theorem applyPrimaryTransition_rest (h : applyPrimaryTransition db t = .ok db') :
    SameRest db db' := by
  unfold applyPrimaryTransition at h
  split at h
  · cases h
  · simp only [ok_steps] at h
    obtain ⟨_, -, rfl⟩ := h
    exact ⟨rfl, rfl, rfl, rfl, rfl⟩
  · cases h; exact ⟨rfl, rfl, rfl, rfl, rfl⟩
  · split at h
    · cases h; exact ⟨rfl, rfl, rfl, rfl, rfl⟩
    · simp only [ok_steps] at h
      obtain ⟨_, -, rfl⟩ := h
      exact ⟨rfl, rfl, rfl, rfl, rfl⟩

theorem applySessionTransition_rest (h : applySessionTransition L db t = .ok db') :
    SameRest db db' := by
  unfold applySessionTransition at h
  simp only [bind_eq_ok] at h
  obtain ⟨_, -, _, -, h⟩ := h
  split at h
  · exact applyPrimaryTransition_rest h
  · unfold applyAlternateTransition at h
    simp only [ok_steps] at h
    obtain ⟨_, -, _, -, rfl⟩ := h
    exact ⟨rfl, rfl, rfl, rfl, rfl⟩

theorem applyDemoted_rest {demoted : Option (SessionTransition σ)}
    (h : applyDemoted L db demoted = .ok db') : SameRest db db' := by
  cases demoted with
  | none => cases h; exact .refl _
  | some t =>
    simp only [applyDemoted, applyDemotedExistingTransition, ok_steps] at h
    obtain ⟨_, -, _, -, _, -, rfl⟩ := h
    exact ⟨rfl, rfl, rfl, rfl, rfl⟩

theorem applyReplaced_rest {replaced : Option SessionId}
    (h : applyReplaced db t replaced = .ok db') : SameRest db db' := by
  cases replaced with
  | none => cases h; exact .refl _
  | some id =>
    simp only [applyReplaced, eraseAuthenticatedRepairSession, ok_steps] at h
    obtain ⟨_, -, _, -, rfl⟩ := h
    exact ⟨rfl, rfl, rfl, rfl, rfl⟩

theorem skippedKeyTotal_congr (hp : db'.primary = db.primary) (ha : db'.alternate = db.alternate)
    (ho : db'.otherSkippedKeys = db.otherSkippedKeys) : skippedKeyTotal db' = skippedKeyTotal db := by
  simp [skippedKeyTotal, hp, ha, ho]

end Frames

section Inversion

variable {L : StoreLimits} {db db' : SessionStore σ δ}

theorem commitPreparedSend_inv {c : SendCommit σ} (h : commitPreparedSend L c db = .ok db') :
    (AlreadyQueued db (.send c : StoreCommit σ δ) ∧ db' = db) ∨ Applied L db db' (.send c) := by
  simp only [commitPreparedSend, ok_steps] at h
  obtain ⟨-, hvalid, h⟩ := h
  split at h
  next hrows =>
    simp only [ok_steps, samePreparedSend, Bool.decide_and, Bool.and_eq_true, decide_eq_true_eq,
      not_not] at h
    obtain ⟨-, ⟨-, hsame⟩, rfl⟩ := h
    exact .inl ⟨⟨c, rfl, hsame⟩, rfl⟩
  next hrows =>
    simp only [ok_steps] at h
    obtain ⟨-, -, -, -, -, -, -, hrev, db₁, h1, db₂, h2, -, htot, rfl⟩ := h
    have hr := (applyDemoted_rest h1).trans (applySessionTransition_rest h2)
    refine .inr ⟨?_, ?_, ?_, ?_, ?_, ?_, ?_⟩
    · exact ⟨db₁, db₁, db₂, h1, rfl, h2, rfl, rfl⟩
    · rintro r ⟨⟩
      simpa using hrev
    · rintro t ⟨⟩
    · exact fun _ => ⟨hr.stateRevision, hr.deviceState⟩
    · change skippedKeyTotal db₂ ≤ _
      omega
    · exact hr.otherSkippedKeys
    · exact congrArg (· ++ _) hr.outbox

theorem applyDevice_inv {t : Option (DeviceStateTransition δ)} (h : applyDevice db t = .ok db') :
    (∀ r, t.map (·.expectedStateVersion) = some r → db.stateRevision = r) ∧
      (∀ d, t = some d → db'.stateRevision = d.nextStateVersion) ∧
      (t = none → db'.stateRevision = db.stateRevision ∧ db'.deviceState = db.deviceState) ∧
      db'.primary = db.primary ∧ db'.alternate = db.alternate ∧
      db'.otherSkippedKeys = db.otherSkippedKeys ∧ db'.outbox = db.outbox := by
  cases t with
  | none => cases h; simp
  | some d =>
    simp only [applyDevice, applyDeviceStateTransition, ok_steps] at h
    obtain ⟨-, -, -, hrev, rfl⟩ := h
    simpa using hrev

theorem commitPreparedReceive_inv {c : ReceiveCommit σ δ}
    (h : commitPreparedReceive L c db = .ok db') :
    validReceive L c = true ∧ Applied L db db' (.receive c) := by
  simp only [commitPreparedReceive, ok_steps] at h
  obtain ⟨-, hvalid, -, -, -, -, -, -, db₁, h1, db₂, h2, db₃, h3, -, htot, db₄, h4, rfl⟩ := h
  have hr := ((applyDemoted_rest h1).trans (applyReplaced_rest h2)).trans
    (applySessionTransition_rest h3)
  obtain ⟨hrev, hdev, hkept, hp, ha, ho, hout⟩ := applyDevice_inv h4
  refine ⟨by simpa using hvalid, ⟨db₁, db₂, db₃, h1, h2, h3, hp, ha⟩, ?_, hdev, ?_, ?_, ?_, ?_⟩
  · exact fun r hc => hr.stateRevision.symm.trans (hrev r hc)
  · intro hc
    obtain ⟨h1, h2⟩ := hkept hc
    exact ⟨h1.trans hr.stateRevision, h2.trans hr.deviceState⟩
  · have := skippedKeyTotal_congr hp ha ho
    change skippedKeyTotal db₄ ≤ _
    omega
  · exact ho.trans hr.otherSkippedKeys
  · simpa [StoreCommit.queued] using hout.trans hr.outbox

theorem commitVolatileSeal_inv {c : VolatileSealCommit σ}
    (h : commitVolatileSeal L c db = .ok db') :
    validVolatileSeal L c = true ∧ Applied L db db' (.volatileSeal c) := by
  simp only [commitVolatileSeal, ok_steps] at h
  obtain ⟨-, hvalid, -, hrev, db₁, h1, -, htot, rfl⟩ := h
  have hr := applySessionTransition_rest h1
  refine ⟨by simpa using hvalid, ⟨db, db, db₁, rfl, rfl, h1, rfl, rfl⟩, ?_, ?_, ?_, ?_, ?_, ?_⟩
  · rintro r ⟨⟩
    simpa using hrev
  · rintro t ⟨⟩
  · exact fun _ => ⟨hr.stateRevision, hr.deviceState⟩
  · omega
  · exact hr.otherSkippedKeys
  · simpa [StoreCommit.queued] using hr.outbox

theorem commitVolatileOpen_inv {c : VolatileOpenCommit σ δ}
    (h : commitVolatileOpen L c db = .ok db') :
    validVolatileOpen L c = true ∧ Applied L db db' (.volatileOpen c) := by
  simp only [commitVolatileOpen, ok_steps] at h
  obtain ⟨-, hvalid, -, -, -, -, db₁, h1, db₃, h3, -, htot, db₄, h4, rfl⟩ := h
  have hr := (applyDemoted_rest h1).trans (applySessionTransition_rest h3)
  obtain ⟨hrev, hdev, hkept, hp, ha, ho, hout⟩ := applyDevice_inv h4
  refine ⟨by simpa using hvalid, ⟨db₁, db₁, db₃, h1, rfl, h3, hp, ha⟩, ?_, hdev, ?_, ?_, ?_, ?_⟩
  · exact fun r hc => hr.stateRevision.symm.trans (hrev r hc)
  · intro hc
    obtain ⟨h1, h2⟩ := hkept hc
    exact ⟨h1.trans hr.stateRevision, h2.trans hr.deviceState⟩
  · have := skippedKeyTotal_congr hp ha ho
    change skippedKeyTotal db₄ ≤ _
    omega
  · exact ho.trans hr.otherSkippedKeys
  · simpa [StoreCommit.queued] using hout.trans hr.outbox

theorem commitStore_inv {c : StoreCommit σ δ} (h : commitStore L db c = .ok db') :
    (AlreadyQueued db c ∧ db' = db) ∨ Applied L db db' c := by
  cases c with
  | send c => exact commitPreparedSend_inv h
  | receive c => exact .inr (commitPreparedReceive_inv h).2
  | volatileSeal c => exact .inr (commitVolatileSeal_inv h).2
  | volatileOpen c => exact .inr (commitVolatileOpen_inv h).2

/-- A commit that demotes or erases installs a new primary session. -/
theorem commitStore_valid {c : StoreCommit σ δ} (h : commitStore L db c = .ok db') :
    (c.demoted.isSome → c.transition.disposition = .primaryBidirectional) ∧
      (c.replaced.isSome → c.demoted = none ∧ c.transition.disposition = .primaryBidirectional) := by
  cases c with
  | send c =>
    simp only [commitStore, commitPreparedSend, ok_steps, not_not] at h
    obtain ⟨-, hvalid, -⟩ := h
    simp only [validSend, decide_eq_true_eq] at hvalid
    exact ⟨fun _ => hvalid.2.2.2.2.2.1, fun h => by simp [StoreCommit.replaced] at h⟩
  | receive c =>
    have hvalid := (commitPreparedReceive_inv h).1
    simp only [validReceive, decide_eq_true_eq] at hvalid
    obtain ⟨-, -, -, -, -, hd, hr, -⟩ := hvalid
    refine ⟨fun hs => ?_, fun hs => ⟨(hr hs).1, (hr hs).2.2.1⟩⟩
    obtain ⟨d, hd'⟩ := Option.isSome_iff_exists.mp hs
    simp only [StoreCommit.demoted] at hd'
    simp only [hd', Option.all_some, validDemotedTransition, decide_eq_true_eq] at hd
    exact hd.2.2.2.1
  | volatileSeal c => exact ⟨fun h => by simp [StoreCommit.demoted] at h,
      fun h => by simp [StoreCommit.replaced] at h⟩
  | volatileOpen c =>
    have hvalid := (commitVolatileOpen_inv h).1
    refine ⟨fun hs => ?_, fun h => by simp [StoreCommit.replaced] at h⟩
    obtain ⟨d, hd'⟩ := Option.isSome_iff_exists.mp hs
    simp only [StoreCommit.demoted] at hd'
    simp only [validVolatileOpen, hd', decide_eq_true_eq] at hvalid
    split at hvalid
    next => exact hvalid.2.1
    next =>
      have := hvalid.2.2.2.2
      simp only [Option.all_some, validDemotedTransition, decide_eq_true_eq] at this
      exact this.2.2.2.1

end Inversion

section Kinds

variable {L : StoreLimits} {db db' : SessionStore σ δ} {t : SessionTransition σ}
  {c : StoreCommit σ δ}

theorem assertNoSessionIdCollision_inv {u : Unit} (h : assertNoSessionIdCollision db t = .ok u) :
    (∀ row, db.primary = some row → row.sessionId = some t.sessionId →
      t.disposition = .primaryBidirectional ∧ t.expectedStateVersion.isSome) ∧
      ∀ row, db.alternate = some row → row.sessionId ≠ some t.sessionId := by
  simp only [assertNoSessionIdCollision, ok_steps] at h
  obtain ⟨-, -, -, hp, ha⟩ := h
  constructor
  · intro row hrow hid
    by_contra hn
    exact hp ⟨by simp [hrow, hid], hn⟩
  · intro row hrow hid
    exact ha (by simp [hrow, hid])

theorem applySessionTransition_update {v : Nat} (h : applySessionTransition L db t = .ok db')
    (hp : t.disposition = .primaryBidirectional) (he : t.expectedStateVersion = some v) :
    (∃ row, db.primary = some row ∧ row.stateVersion = v ∧ row.remoteUserId = t.remoteUserId) ∧
      (∀ row, db.alternate = some row → row.sessionId ≠ some t.sessionId) ∧
      db'.primary = some t.row ∧ db'.alternate = none := by
  simp only [applySessionTransition, hp, bind_eq_ok] at h
  obtain ⟨-, -, _, hcol, h⟩ := h
  simp only [applyPrimaryTransition, he] at h
  split at h
  next => cases h
  next hv hprim =>
    cases hv
    simp only [ok_steps, not_or, not_not] at h
    obtain ⟨-, ⟨hver, huser⟩, rfl⟩ := h
    exact ⟨⟨_, hprim, hver, huser⟩, (assertNoSessionIdCollision_inv hcol).2, rfl, rfl⟩
  next hv _ => cases hv
  next hv _ => cases hv

theorem applySessionTransition_alternate (h : applySessionTransition L db t = .ok db')
    (hp : t.disposition = .alternateReceiveOnly) :
    db.alternate = none ∧ (∀ row, db.primary = some row → row.sessionId ≠ some t.sessionId) ∧
      db'.primary = db.primary ∧ db'.alternate = some t.row := by
  simp only [applySessionTransition, hp, bind_eq_ok] at h
  obtain ⟨-, -, _, hcol, h⟩ := h
  simp only [applyAlternateTransition, ok_steps, not_or, Bool.not_eq_true,
    Option.isSome_eq_false_iff, Option.isNone_iff_eq_none] at h
  obtain ⟨-, ⟨-, halt⟩, -, -, rfl⟩ := h
  refine ⟨halt, fun row hrow hid => ?_, rfl, rfl⟩
  have := ((assertNoSessionIdCollision_inv hcol).1 row hrow hid).1
  simp [hp] at this

theorem applySessionTransition_install (h : applySessionTransition L db t = .ok db')
    (hp : t.disposition = .primaryBidirectional) (he : t.expectedStateVersion = none) :
    db'.primary = some t.row ∧
      ((readPrimary db = none ∧ db'.alternate = db.alternate) ∨
        ∃ row, readPrimary db = some row ∧ row.sessionId ≠ some t.sessionId ∧
          db.alternate = none ∧ db'.alternate = some row) := by
  simp only [applySessionTransition, hp, bind_eq_ok] at h
  obtain ⟨-, -, _, hcol, h⟩ := h
  simp only [applyPrimaryTransition, he] at h
  split at h
  next hv _ => cases hv
  next hv _ => cases hv
  next hprim => cases h; exact ⟨rfl, .inl ⟨by simp [readPrimary, hprim], rfl⟩⟩
  next row _ hprim =>
    split at h
    next hid => cases h; exact ⟨rfl, .inl ⟨by simp [readPrimary, hprim, hid], rfl⟩⟩
    next hid =>
      simp only [ok_steps, not_or, Bool.not_eq_true, Option.isSome_eq_false_iff,
        Option.isNone_iff_eq_none] at h
      obtain ⟨-, ⟨-, halt⟩, rfl⟩ := h
      refine ⟨rfl, .inr ⟨row, ?_, fun heq => ?_, halt, rfl⟩⟩
      · simp [readPrimary, hprim, Option.isSome_iff_ne_none, hid]
      · have := ((assertNoSessionIdCollision_inv hcol).1 row hprim heq).2
        simp [he] at this

namespace Applied

variable (h : Applied L db db' c) (hd : c.demoted = none) (hr : c.replaced = none)
include h hd hr

theorem plain : ∃ db₃, applySessionTransition L db c.transition = .ok db₃ ∧
      db'.primary = db₃.primary ∧ db'.alternate = db₃.alternate := by
  obtain ⟨db₁, db₂, db₃, h1, h2, h3, hp, ha⟩ := h.sessions
  rw [hd] at h1
  rw [hr] at h2
  cases h1
  cases h2
  exact ⟨db₃, h3, hp, ha⟩

theorem update {v : Nat} (hp : c.transition.disposition = .primaryBidirectional)
    (he : c.transition.expectedStateVersion = some v) :
    (∃ row, db.primary = some row ∧ row.stateVersion = v ∧
      row.remoteUserId = c.transition.remoteUserId) ∧
      (∀ row, db.alternate = some row → row.sessionId ≠ some c.transition.sessionId) ∧
      db'.primary = some c.transition.row ∧ db'.alternate = none := by
  obtain ⟨db₃, h3, hp', ha'⟩ := h.plain hd hr
  rw [hp', ha']
  exact applySessionTransition_update h3 hp he

theorem alternate (hp : c.transition.disposition = .alternateReceiveOnly) : db.alternate = none ∧
      (∀ row, db.primary = some row → row.sessionId ≠ some c.transition.sessionId) ∧
      db'.primary = db.primary ∧ db'.alternate = some c.transition.row := by
  obtain ⟨db₃, h3, hp', ha'⟩ := h.plain hd hr
  rw [hp', ha']
  exact applySessionTransition_alternate h3 hp

theorem installs (hp : c.transition.disposition = .primaryBidirectional)
    (he : c.transition.expectedStateVersion = none) :
    db'.primary = some c.transition.row ∧
      ((readPrimary db = none ∧ db'.alternate = db.alternate) ∨
        ∃ row, readPrimary db = some row ∧ row.sessionId ≠ some c.transition.sessionId ∧
          db.alternate = none ∧ db'.alternate = some row) := by
  obtain ⟨db₃, h3, hp', ha'⟩ := h.plain hd hr
  rw [hp', ha']
  exact applySessionTransition_install h3 hp he

omit h hd hr

variable (h : Applied L db db' c) (hp : c.transition.disposition = .primaryBidirectional)
  (he : c.transition.expectedStateVersion = none)
include h hp he

theorem wins {d : SessionTransition σ} (hd : c.demoted = some d) (hr : c.replaced = none) :
    (∃ row, db.primary = some row ∧ some row.stateVersion = d.expectedStateVersion ∧
      row.sessionId = some d.sessionId) ∧ db'.primary = some c.transition.row ∧
      db'.alternate = some d.row := by
  obtain ⟨db₁, db₂, db₃, h1, h2, h3, hp', ha'⟩ := h.sessions
  rw [hr] at h2
  cases h2
  rw [hd] at h1
  simp only [applyDemoted, applyDemotedExistingTransition, ok_steps, okOr_eq_ok, not_or,
    not_not] at h1
  obtain ⟨-, -, row, hrow, -, ⟨hver, -, hid⟩, rfl⟩ := h1
  obtain ⟨hprim, ⟨-, halt⟩ | ⟨row', hrow', -⟩⟩ := applySessionTransition_install h3 hp he
  · exact ⟨⟨row, hrow, hver, hid⟩, hp'.trans hprim, ha'.trans halt⟩
  · simp [readPrimary] at hrow'

theorem replaces {id : SessionId} (hd : c.demoted = none) (hr : c.replaced = some id) :
    (∃ row, db.primary = some row ∧ row.sessionId = some id ∧
      row.repairState = .authenticatedRequestPending ∧
      row.remoteUserId = c.transition.remoteUserId) ∧
      db'.primary = some c.transition.row ∧ db'.alternate = db.alternate := by
  obtain ⟨db₁, db₂, db₃, h1, h2, h3, hp', ha'⟩ := h.sessions
  rw [hd] at h1
  cases h1
  rw [hr] at h2
  simp only [applyReplaced, eraseAuthenticatedRepairSession, ok_steps, okOr_eq_ok, not_or,
    not_not] at h2
  obtain ⟨row, hrow, -, ⟨huser, hid, hrep⟩, rfl⟩ := h2
  obtain ⟨hprim, ⟨-, halt⟩ | ⟨row', hrow', -⟩⟩ := applySessionTransition_install h3 hp he
  · exact ⟨⟨row, hrow, hid, hrep, huser⟩, hp'.trans hprim, ha'.trans halt⟩
  · simp [readPrimary] at hrow'

end Applied

end Kinds

end CommPlatform.L4
