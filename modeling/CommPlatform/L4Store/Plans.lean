import CommPlatform.Core.Runs
import CommPlatform.L4Store.CommitEffects

/-!
# What an operation plans

`prepare` of each operation taken apart: from a store with a primary session
an operation updates that session (`Updates`) or accepts an initial
envelope; from a store without one it starts a session (`Starts`) or accepts
an initial. `prepare_initial_iff` and `prepare_regular_congr` say from which
other stores the same plan is made.

`DeviceRun` is the store with the plans that wait to be committed; whatever
order they are committed in, the store stays sound (`sound_inductive`).
-/
namespace CommPlatform.L4

open CommPlatform.Core
open Option (bind_eq_some_iff map_eq_some_iff map_some)

variable {σ δ ι : Type}

/-- One native call carries a session on: a seal, a repair request, an opening, or an opened repair
control with the authorization taken out. -/
inductive SessionCrypto.Advances (C : SessionCrypto σ δ ι) (s : σ) : σ → Prop
  | encrypt {x : ι} {n : Nat} {e : SealedEnvelope σ} (h : C.encrypt x s n = some e) :
      Advances C s e.nextSession
  | repair {x : ι} {n : Nat} {e : SealedEnvelope σ} (h : C.createRepairRequest x s n = some e) :
      Advances C s e.nextSession
  | opened {x : ι} {n : Nat} {s' : σ} {payload : Bytes} {marker : Block 32}
      (h : C.decrypt x s n = some (.opened s' payload marker false)) : Advances C s s'
  | consumed {x : ι} {n : Nat} {s₁ s' : σ} {payload authorization : Bytes} {marker : Block 32}
      (h : C.decrypt x s n = some (.opened s₁ payload marker true))
      (hc : C.consumeRepairRequest s₁ = some (s', authorization)) : Advances C s s'

/-- What the operations rely on of the session core. A `clean` session may send and holds no token
of the peer; the calls keep it so. An initial that loses to a session loses to what the session
becomes, and a repair is answered on what the session becomes by opening. -/
structure SessionCrypto.Lawful (C : SessionCrypto σ δ ι) (clean : σ → Prop) : Prop where
  advances_id : ∀ {s s'}, C.Advances s s' → clean s → C.sessionId s' = C.sessionId s
  advances_clean : ∀ {s s'}, C.Advances s s' → clean s → clean s'
  initiate_clean : ∀ {x d a n e}, C.initiate x d a n = some e → clean e.nextSession
  accept_clean : ∀ {x d e r a}, C.acceptInitial x d e r = some a →
    a.disposition = .primaryBidirectional → clean a.nextSession
  accept_skips : ∀ {x d e r a}, C.acceptInitial x d e r = some a →
    C.skippedKeyCount a.nextSession = 0
  accept_alone : ∀ {x d a}, C.acceptInitial x d none none = some a →
    a.disposition = .primaryBidirectional
  accept_wins : ∀ {x d s a}, C.acceptInitial x d (some s) none = some a →
    a.disposition = .primaryBidirectional → a.updatedExistingSession.isSome
  advances_loses : ∀ {x d s s' a}, C.Advances s s' → clean s →
    C.acceptInitial x d (some s) none = some a → a.disposition = .alternateReceiveOnly →
    C.acceptInitial x d (some s') none = some a
  initiate_loses : ∀ {x y d d' auth n e s a}, C.initiate y d' auth n = some e →
    C.acceptInitial x d (some s) none = some a → a.disposition = .alternateReceiveOnly →
    C.acceptInitial x d (some e.nextSession) none = some a
  opened_replaced : ∀ {x y d n s s' payload marker a},
    C.decrypt y s n = some (.opened s' payload marker false) → clean s →
    C.acceptInitial x d none (some s) = some a → C.acceptInitial x d none (some s') = some a

variable {id : SessionId}

/-! ## What was read -/

section Reads

variable {L : StoreLimits} {user : String} {db : SessionStore σ δ} {p : SessionRow σ}

theorem readPrimary_eq_some :
    readPrimary db = some p ↔ db.primary = some p ∧ p.sessionId.isSome := by
  simp [readPrimary, Option.filter_eq_some_iff]

theorem readPrimary_of_named (hp : db.primary = some p)
    (hid : p.sessionId = some id) : readPrimary db = some p :=
  readPrimary_eq_some.mpr ⟨hp, by simp [hid]⟩

theorem readPreparationContext_eq_some {ctx : PreparationContext σ δ} :
    readPreparationContext L user db = some ctx ↔ 0 < db.stateRevision ∧
      (∀ p, readPrimary db = some p → p.remoteUserId = user) ∧
      (∀ a, db.alternate = some a → a.remoteUserId = user) ∧
      skippedKeyTotal db ≤ L.maximumSkippedKeysPerAccount ∧
      ctx = ⟨readPrimary db, db.alternate, db.deviceState, db.stateRevision,
        skippedKeyTotal db - (readPrimary db).elim 0 (·.skippedKeyCount)⟩ := by
  simp only [readPreparationContext, some_steps]
  constructor
  · rintro ⟨h0, ⟨hp, ha⟩, ht, rfl⟩
    exact ⟨h0, fun p h => by simpa [h] using hp, fun a h => by simpa [h] using ha, ht, rfl⟩
  · rintro ⟨h0, hp, ha, ht, rfl⟩
    refine ⟨h0, ⟨?_, ?_⟩, ht, rfl⟩
    · cases h : readPrimary db with
      | none => simp
      | some p => simpa using hp p h
    · cases h : db.alternate with
      | none => simp
      | some a => simpa using ha a h

theorem readSessionById_primary {row : SessionRow σ} :
    readSessionById db id = some (row, .primaryBidirectional) ↔
      db.primary = some row ∧ row.sessionId = some id ∧
      ∀ a, db.alternate = some a → a.sessionId ≠ some id := by
  unfold readSessionById
  cases hp : db.primary with
  | none =>
    cases ha : db.alternate with
    | none => simp
    | some a => by_cases h2 : a.sessionId = some id <;> simp [Option.filter, h2]
  | some p =>
    cases ha : db.alternate with
    | none => by_cases h1 : p.sessionId = some id <;> simp [Option.filter, h1] <;> grind
    | some a =>
      by_cases h1 : p.sessionId = some id <;> by_cases h2 : a.sessionId = some id <;>
        simp [Option.filter, h1, h2] <;> grind

theorem readInboundContext_primary {ctx : InboundContext σ} :
    readInboundContext L db id = some ctx ∧ ctx.disposition = .primaryBidirectional ↔
      db.primary = some ctx.session ∧ ctx.session.sessionId = some id ∧
      (∀ a, db.alternate = some a → a.sessionId ≠ some id) ∧
      skippedKeyTotal db ≤ L.maximumSkippedKeysPerAccount ∧
      ctx = ⟨ctx.session, .primaryBidirectional,
        skippedKeyTotal db - ctx.session.skippedKeyCount⟩ := by
  simp only [readInboundContext, some_steps]
  constructor
  · rintro ⟨⟨⟨row, disp⟩, hr, ht, rfl⟩, hd⟩
    cases hd
    obtain ⟨hp, hid, ha⟩ := readSessionById_primary.mp hr
    exact ⟨hp, hid, ha, ht, rfl⟩
  · rintro ⟨hp, hid, ha, ht, hctx⟩
    exact ⟨⟨(ctx.session, .primaryBidirectional), readSessionById_primary.mpr ⟨hp, hid, ha⟩, ht,
      hctx.symm⟩, by rw [hctx]⟩

end Reads

/-! ## Updates of the primary session -/

/-- The plan installs the next version of the primary session `p`, and nothing else. -/
structure Updates (C : SessionCrypto σ δ ι) (db : SessionStore σ δ) (p : SessionRow σ)
    (c : StoreCommit σ δ) : Prop where
  identified : C.sessionId c.transition.nextOpaqueState = c.transition.sessionId
  primary : c.transition.disposition = .primaryBidirectional
  expected : c.transition.expectedStateVersion = some p.stateVersion
  next : c.transition.nextStateVersion = p.stateVersion + 1
  user : c.transition.remoteUserId = p.remoteUserId
  demoted : c.demoted = none
  replaced : c.replaced = none
  device : c.device = none
  made : C.Advances p.opaqueState c.transition.nextOpaqueState ∨
    ∃ x d a n e, C.initiate x d a n = some e ∧ c.transition.nextOpaqueState = e.nextSession
  /-- while a repair request is out, only openings keep it so -/
  opened : p.repairState = .authenticatedRequestPending →
    c.transition.repairState = .authenticatedRequestPending →
    ∃ x n payload marker, C.decrypt x p.opaqueState n =
      some (.opened c.transition.nextOpaqueState payload marker false)
  /-- sends and seals insist on the device state they read -/
  revision : c.revision = some db.stateRevision ∨
    c.revision = none ∧ p.sessionId = some c.transition.sessionId

variable {op : Operation ι}

/-- The plan starts a session where none was read. -/
structure Starts (C : SessionCrypto σ δ ι) (db : SessionStore σ δ) (c : StoreCommit σ δ) :
    Prop where
  identified : C.sessionId c.transition.nextOpaqueState = c.transition.sessionId
  ready : c.transition.repairState = .ready
  made : ∃ x d a n e, C.initiate x d a n = some e ∧ c.transition.nextOpaqueState = e.nextSession
  primary : c.transition.disposition = .primaryBidirectional
  expected : c.transition.expectedStateVersion = none
  version : c.transition.nextStateVersion = 1
  demoted : c.demoted = none
  replaced : c.replaced = none
  revision : c.revision = some db.stateRevision

section Plans

variable {C : SessionCrypto σ δ ι} {L : StoreLimits} {user : String} {clean : σ → Prop}
  {db : SessionStore σ δ} {p : SessionRow σ} {x : ι} {payload : Bytes}
  {ctx : PreparationContext σ δ}

theorem prepareOutbound_made {e : SealedEnvelope σ}
    (h : prepareOutbound C x ctx = some e) (hp : ctx.primary = some p) :
    p.repairState ≠ .authenticatedRequestPending ∧ (C.Advances p.opaqueState e.nextSession ∨
      ∃ x d a n e', C.initiate x d a n = some e' ∧ e.nextSession = e'.nextSession) := by
  unfold prepareOutbound at h
  simp only [hp] at h
  split at h
  next hr _ => exact ⟨by simp [hr], .inl (.encrypt h)⟩
  next hr _ => exact ⟨by simp [hr], .inr ⟨_, _, _, _, e, h, rfl⟩⟩
  next => cases h

variable {o m ev : String}

theorem prepareSend_updates {c : SendCommit σ} (h : prepareSend C L user x o ev payload db = some c)
    (hp : readPrimary db = some p) : Updates C db p (.send c) := by
  simp only [prepareSend, some_steps, readPreparationContext_eq_some] at h
  obtain ⟨-, ctx, ⟨-, huser, -, -, rfl⟩, e, he, rfl⟩ := h
  obtain ⟨hnp, hm⟩ := prepareOutbound_made he hp
  refine ⟨rfl, rfl, ?_, ?_, (huser p hp).symm, rfl, rfl, rfl, hm, fun h => absurd h hnp, .inl rfl⟩ <;>
    simp [StoreCommit.transition, primaryTransition, hp]

theorem prepareRepairRequest_updates
    {c : SendCommit σ} (h : prepareRepairRequest C L user x o m db = some c)
    (hp : readPrimary db = some p) : Updates C db p (.send c) := by
  simp only [prepareRepairRequest, some_steps, readPreparationContext_eq_some] at h
  obtain ⟨-, ctx, ⟨-, huser, -, -, rfl⟩, session, hs, hready, e, he, rfl⟩ := h
  cases hp.symm.trans hs
  exact ⟨rfl, rfl, rfl, rfl, (huser p hp).symm, rfl, rfl, rfl, .inl (.repair he),
    fun h => by simp [hready] at h, .inl rfl⟩

theorem prepareVolatileSeal_updates {c : VolatileSealCommit σ}
    (h : prepareVolatileSeal C L user x db = some c)
    (hp : readPrimary db = some p) : Updates C db p (.volatileSeal c) := by
  simp only [prepareVolatileSeal, some_steps, readPreparationContext_eq_some] at h
  obtain ⟨ctx, ⟨-, huser, -, -, rfl⟩, session, hs, ⟨hready, -⟩, e, he, rfl⟩ := h
  cases hp.symm.trans hs
  obtain ⟨hnp, hm⟩ := prepareOutbound_made he hs
  exact ⟨rfl, rfl, rfl, rfl, (huser p hp).symm, rfl, rfl, rfl, hm, fun h => absurd h hnp, .inl rfl⟩

def Identified (C : SessionCrypto σ δ ι) (row : SessionRow σ) : Prop :=
  ∀ id, row.sessionId = some id → C.sessionId row.opaqueState = id

theorem openedSession_inv {n : Nat} {next : σ} {marker : Block 32}
    {control : Bool} {o : σ × RepairState × Option Bytes}
    (hd : C.decrypt x p.opaqueState n = some (.opened next payload marker control))
    (h : openedSession C p next control = some o) : C.Advances p.opaqueState o.1 ∧
      (o.2.1 = .authenticatedRequestPending → ∃ x n payload marker,
        C.decrypt x p.opaqueState n = some (.opened o.1 payload marker false)) := by
  cases control with
  | false =>
    cases h
    exact ⟨.opened hd, fun _ => ⟨_, _, _, _, hd⟩⟩
  | true =>
    simp only [openedSession, some_steps] at h
    obtain ⟨⟨s', a⟩, hc, rfl⟩ := h
    exact ⟨.consumed hd hc, fun h => by simp at h⟩

variable {c : StoreCommit σ δ}

structure RowSound (C : SessionCrypto σ δ ι) (clean : σ → Prop) (row : SessionRow σ) : Prop where
  identified : Identified C row
  clean : clean row.opaqueState

theorem prepareRegular_updates (hC : C.Lawful clean) (hs : ∀ p, db.primary = some p →
    RowSound C clean p) {envelopeId : String}
    (h : prepareRegular C L user x envelopeId id db = some c) :
    ∃ p, readPrimary db = some p ∧ Updates C db p c := by
  simp only [prepareRegular, some_steps] at h
  obtain ⟨ctx, hctx, hdisp, opening, hd, h⟩ := h
  obtain ⟨hprim, hsid, -⟩ := readInboundContext_primary.mp ⟨hctx, hdisp⟩
  have hread := readPrimary_of_named hprim hsid
  refine ⟨ctx.session, hread, ?_⟩
  cases opening with
  | repairRequired =>
    simp only [some_steps] at h
    obtain ⟨s, hs, rfl⟩ := h
    exact prepareRepairRequest_updates hs hread
  | opened next payload marker control =>
    simp only [some_steps] at h
    obtain ⟨-, o, ho, rfl⟩ := h
    obtain ⟨hm, hw⟩ := openedSession_inv hd ho
    obtain ⟨hid, hclean⟩ := hs _ hprim
    refine ⟨rfl, rfl, rfl, rfl, rfl, rfl, rfl, rfl, .inl hm, fun _ => hw, .inr ⟨rfl, ?_⟩⟩
    rw [hsid, ← hid _ hsid]
    exact congrArg some (hC.advances_id hm hclean).symm

theorem prepareVolatileRegular_updates (hC : C.Lawful clean) (hs : ∀ p, db.primary = some p →
    RowSound C clean p)
    (h : prepareVolatileRegular C L user x id db = some c) :
    ∃ p, readPrimary db = some p ∧ Updates C db p c := by
  simp only [prepareVolatileRegular, some_steps] at h
  obtain ⟨ctx, hctx, hdisp, opening, hd, h⟩ := h
  obtain ⟨hprim, hsid, -⟩ := readInboundContext_primary.mp ⟨hctx, hdisp⟩
  have hread := readPrimary_of_named hprim hsid
  refine ⟨ctx.session, hread, ?_⟩
  cases opening with
  | repairRequired =>
    simp only [some_steps] at h
    obtain ⟨s, hs, rfl⟩ := h
    exact prepareRepairRequest_updates hs hread
  | opened next payload marker control =>
    simp only [some_steps] at h
    obtain ⟨⟨-, rfl⟩, rfl⟩ := h
    obtain ⟨hid, hclean⟩ := hs _ hprim
    refine ⟨rfl, rfl, rfl, rfl, rfl, rfl, rfl, rfl, .inl (.opened hd),
      fun _ _ => ⟨_, _, _, _, hd⟩, .inr ⟨rfl, ?_⟩⟩
    rw [hsid, ← hid _ hsid]
    exact congrArg some (hC.advances_id (.opened hd) hclean).symm

theorem prepareSend_starts {c : SendCommit σ}
    (h : prepareSend C L user x o ev payload db = some c) (hp : readPrimary db = none) :
    Starts C db (.send c : StoreCommit σ δ) := by
  simp only [prepareSend, some_steps, readPreparationContext_eq_some] at h
  obtain ⟨-, ctx, ⟨-, -, -, -, rfl⟩, e, he, rfl⟩ := h
  simp only [prepareOutbound, hp] at he
  refine ⟨rfl, rfl, ⟨_, _, _, _, e, he, rfl⟩, rfl, ?_, ?_, rfl, rfl, rfl⟩ <;>
    simp [StoreCommit.transition, primaryTransition, hp]

/-! ## The operations together -/

def Operation.isInitial : Operation ι → Bool
  | .receiveInitial _ _ => true
  | .openVolatileInitial _ => true
  | _ => false

def Operation.isSend : Operation ι → Bool
  | .fanOutSend _ _ _ _ => true
  | _ => false

theorem prepare_updates (hC : C.Lawful clean) (hs : ∀ p, db.primary = some p →
    RowSound C clean p) (hp : readPrimary db = some p)
    (hop : op.isInitial = false) (h : op.prepare C L user db = some c) :
    Updates C db p c := by
  cases op with
  | fanOutSend x o ev payload =>
    obtain ⟨s, hs, rfl⟩ := map_eq_some_iff.mp h
    exact prepareSend_updates hs hp
  | requestRepair x o =>
    obtain ⟨s, hs, rfl⟩ := map_eq_some_iff.mp h
    exact prepareRepairRequest_updates hs hp
  | receiveRegular x e id =>
    obtain ⟨p', hp', hu⟩ := prepareRegular_updates hC hs h
    exact Option.some.inj (hp'.symm.trans hp) ▸ hu
  | receiveInitial => cases hop
  | sealVolatile x =>
    obtain ⟨s, hs, rfl⟩ := map_eq_some_iff.mp h
    exact prepareVolatileSeal_updates hs hp
  | openVolatileRegular x id =>
    obtain ⟨p', hp', hu⟩ := prepareVolatileRegular_updates hC hs h
    exact Option.some.inj (hp'.symm.trans hp) ▸ hu
  | openVolatileInitial => cases hop

theorem prepareRepairRequest_reads {c : SendCommit σ}
    (h : prepareRepairRequest C L user x o m db = some c) : ∃ p, readPrimary db = some p := by
  simp only [prepareRepairRequest, some_steps, readPreparationContext_eq_some] at h
  obtain ⟨-, ctx, ⟨-, -, -, -, rfl⟩, p, hp, -⟩ := h
  exact ⟨p, hp⟩

theorem prepareVolatileSeal_reads {c : VolatileSealCommit σ}
    (h : prepareVolatileSeal C L user x db = some c) : ∃ p, readPrimary db = some p := by
  simp only [prepareVolatileSeal, some_steps, readPreparationContext_eq_some] at h
  obtain ⟨ctx, ⟨-, -, -, -, rfl⟩, p, hp, -⟩ := h
  exact ⟨p, hp⟩

theorem prepare_starts (hC : C.Lawful clean) (hs : ∀ p, db.primary = some p →
    RowSound C clean p) (hp : readPrimary db = none)
    (hop : op.isInitial = false) (h : op.prepare C L user db = some c) :
    op.isSend = true ∧ Starts C db c := by
  cases op with
  | fanOutSend x o ev payload =>
    obtain ⟨s, hs, rfl⟩ := map_eq_some_iff.mp h
    exact ⟨rfl, prepareSend_starts hs hp⟩
  | requestRepair x o =>
    obtain ⟨s, hs, rfl⟩ := map_eq_some_iff.mp h
    obtain ⟨p, hp'⟩ := prepareRepairRequest_reads hs
    simp [hp] at hp'
  | receiveRegular x e id =>
    obtain ⟨p, hp', -⟩ := prepareRegular_updates hC hs h
    simp [hp] at hp'
  | receiveInitial => cases hop
  | sealVolatile x =>
    obtain ⟨s, hs, rfl⟩ := map_eq_some_iff.mp h
    obtain ⟨p, hp'⟩ := prepareVolatileSeal_reads hs
    simp [hp] at hp'
  | openVolatileRegular x id =>
    obtain ⟨p, hp', -⟩ := prepareVolatileRegular_updates hC hs h
    simp [hp] at hp'
  | openVolatileInitial => cases hop

theorem prepare_regular_congr (db₁ : SessionStore σ δ)
    (hop : op.isInitial = false) (h : op.prepare C L user db = some c) (hc : c.revision = none) :
    ∃ id ctx, (readInboundContext L db id = some ctx ∧ ctx.disposition = .primaryBidirectional) ∧
      (readInboundContext L db₁ id = some ctx → op.prepare C L user db₁ = some c) := by
  cases op with
  | receiveRegular | openVolatileRegular =>
    simp only [Operation.prepare, prepareRegular, prepareVolatileRegular, some_steps] at h ⊢
    obtain ⟨ctx, hctx, hdisp, opening, hd, h⟩ := h
    refine ⟨_, ctx, ⟨hctx, hdisp⟩, fun hread => ⟨ctx, hread, hdisp, opening, hd, ?_⟩⟩
    cases opening with
    | opened => exact h
    | repairRequired =>
      obtain ⟨s, -, hs⟩ := bind_eq_some_iff.mp h
      cases hs
      simp [StoreCommit.revision] at hc
  | fanOutSend | requestRepair | sealVolatile =>
    obtain ⟨s, hs, rfl⟩ := map_eq_some_iff.mp h
    simp [StoreCommit.revision] at hc
  | receiveInitial | openVolatileInitial => cases hop

theorem prepareSend_unqueued {c : SendCommit σ}
    (h : prepareSend C L user x o ev payload db = some c) :
    db.outbox.filter (·.operationId = c.operationId) = [] := by
  simp only [prepareSend, some_steps] at h
  obtain ⟨ho, -, -, -, -, rfl⟩ := h
  simpa [List.filter_eq_nil_iff] using ho

theorem prepareRepairRequest_unqueued {c : SendCommit σ}
    (h : prepareRepairRequest C L user x o m db = some c) :
    db.outbox.filter (·.operationId = c.operationId) = [] := by
  simp only [prepareRepairRequest, some_steps] at h
  obtain ⟨ho, -, -, -, -, -, -, -, rfl⟩ := h
  simpa [List.filter_eq_nil_iff] using ho

theorem prepare_unqueued {s : SendCommit σ} (h : op.prepare C L user db = some (.send s)) :
    db.outbox.filter (·.operationId = s.operationId) = [] := by
  cases op with
  | fanOutSend x o ev payload =>
    obtain ⟨s', hs, hs'⟩ := map_eq_some_iff.mp h
    cases hs'
    exact prepareSend_unqueued hs
  | requestRepair x o =>
    obtain ⟨s', hs, hs'⟩ := map_eq_some_iff.mp h
    cases hs'
    exact prepareRepairRequest_unqueued hs
  | receiveRegular | openVolatileRegular =>
    simp only [Operation.prepare, prepareRegular, prepareVolatileRegular, some_steps] at h
    obtain ⟨ctx, -, -, opening, -, h⟩ := h
    cases opening with
    | opened => simp [bind_eq_some_iff] at h
    | repairRequired =>
      simp only [some_steps, StoreCommit.send.injEq, exists_eq_right] at h
      exact prepareRepairRequest_unqueued h
  | receiveInitial | sealVolatile | openVolatileInitial =>
    obtain ⟨_, -, hs'⟩ := map_eq_some_iff.mp h
    cases hs'

/-! ## Initial envelopes -/

def Operation.input : Operation ι → ι
  | .fanOutSend x _ _ _ | .requestRepair x _ | .receiveRegular x _ _ | .receiveInitial x _
  | .sealVolatile x | .openVolatileRegular x _ | .openVolatileInitial x => x

def initialCommit (user : String) (t : InitialTransitions σ δ) :
    Operation ι → Option SessionId → Option (StoreCommit σ δ)
  | .receiveInitial _ envelopeId, replaced => some (.receive
      ⟨envelopeId, user, t.accepted.replayMarker, t.accepted.openedPayload, t.sessionTransition,
        t.demoted, replaced, some t.deviceStateTransition⟩)
  | .openVolatileInitial _, none => some (.volatileOpen
      ⟨t.sessionTransition, t.demoted, some t.deviceStateTransition, some t.accepted.replayMarker⟩)
  | _, _ => none

theorem prepare_initial_iff (hop : op.isInitial = true) :
    op.prepare C L user db = some c ↔ ∃ r ctx rep t,
      C.probeInitial op.input db.deviceState = some r ∧
      readPreparationContext L user db = some ctx ∧ readReplaced L user db r = some rep ∧
      prepareAccepted C user op.input ctx (if r.isSome then none else ctx.primary) rep = some t ∧
      initialCommit user t op r = some c := by
  cases op with
  | receiveInitial x e =>
    simp only [Operation.prepare, prepareInitial, map_eq_some_iff, some_steps, initialCommit,
      Operation.input]
    constructor
    · rintro ⟨s, ⟨r, hr, ctx, hctx, rep, hrep, t, ht, rfl⟩, rfl⟩
      exact ⟨r, ctx, rep, t, hr, hctx, hrep, ht, rfl⟩
    · rintro ⟨r, ctx, rep, t, hr, hctx, hrep, ht, rfl⟩
      exact ⟨_, ⟨r, hr, ctx, hctx, rep, hrep, t, ht, rfl⟩, rfl⟩
  | openVolatileInitial x =>
    simp only [Operation.prepare, prepareVolatileInitial, map_eq_some_iff, some_steps,
      Operation.input]
    constructor
    · rintro ⟨s, ⟨r, hr, rfl, ctx, hctx, t, ht, rfl⟩, rfl⟩
      exact ⟨none, ctx, none, t, hr, hctx, rfl, ht, rfl⟩
    · rintro ⟨r, ctx, rep, t, hr, hctx, hrep, ht, hc⟩
      cases r with
      | some id => cases hc
      | none =>
        cases hrep
        cases hc
        exact ⟨_, ⟨none, hr, rfl, ctx, hctx, t, ht, rfl⟩, rfl⟩
  | fanOutSend | requestRepair | receiveRegular | sealVolatile | openVolatileRegular => cases hop

variable {t : InitialTransitions σ δ}

theorem initialCommit_inv {r : Option SessionId} (h : initialCommit user t op r = some c) :
    c.transition = t.sessionTransition ∧ c.demoted = t.demoted ∧ c.replaced = r ∧
      c.device = some t.deviceStateTransition ∧
      c.revision = some t.deviceStateTransition.expectedStateVersion ∧ c.queued = [] := by
  unfold initialCommit at h
  split at h
  · cases h; exact ⟨rfl, rfl, rfl, rfl, rfl, rfl⟩
  · cases h; exact ⟨rfl, rfl, rfl, rfl, rfl, rfl⟩
  · cases h

theorem prepareAccepted_eq_some {existing replaced : Option (SessionRow σ)} :
    prepareAccepted C user x ctx existing replaced = some t ↔ ∃ a demoted,
      C.acceptInitial x ctx.deviceState (existing.map (·.opaqueState))
        (replaced.map (·.opaqueState)) = some a ∧ a.openedPayload ≠ [] ∧
      demotedTransition C ctx.primary a.updatedExistingSession = some demoted ∧
      t = ⟨a, { primaryTransition C user none a.nextSession .ready none with
        disposition := a.disposition }, demoted,
        ⟨a.nextDeviceState, ctx.stateVersion, ctx.stateVersion + 1⟩⟩ := by
  simp only [prepareAccepted, some_steps]
  constructor
  · rintro ⟨a, ha, hne, d, hd, rfl⟩
    exact ⟨a, d, ha, hne, hd, rfl⟩
  · rintro ⟨a, d, ha, hne, hd, rfl⟩
    exact ⟨a, ha, hne, d, hd, rfl⟩

structure Accepts (C : SessionCrypto σ δ ι) (clean : σ → Prop) (db : SessionStore σ δ)
    (c : StoreCommit σ δ) : Prop where
  identified : C.sessionId c.transition.nextOpaqueState = c.transition.sessionId
  ready : c.transition.repairState = .ready
  clean : c.transition.disposition = .primaryBidirectional →
    clean c.transition.nextOpaqueState
  expected : c.transition.expectedStateVersion = none
  version : c.transition.nextStateVersion = 1
  skipped : c.transition.nextSkippedKeyCount = 0
  revision : c.revision = some db.stateRevision
  device : ∃ d, c.device = some d ∧ d.nextStateVersion = db.stateRevision + 1

/-- How the initial relates to the primary session that was read. -/
inductive Acceptance (db : SessionStore σ δ) (c : StoreCommit σ δ) : Prop
  | loses (p : SessionRow σ) (hp : readPrimary db = some p) (hd : c.demoted = none)
      (hr : c.replaced = none) (hdisp : c.transition.disposition = .alternateReceiveOnly)
  | wins (p : SessionRow σ) (d : SessionTransition σ) (hp : readPrimary db = some p)
      (hd : c.demoted = some d) (hr : c.replaced = none)
      (hdisp : c.transition.disposition = .primaryBidirectional)
      (hexp : d.expectedStateVersion = some p.stateVersion)
      (hnext : d.nextStateVersion = p.stateVersion + 1)
  | replaces (p : SessionRow σ) (id : SessionId) (hp : readPrimary db = some p)
      (hrep : p.repairState = .authenticatedRequestPending) (hd : c.demoted = none)
      (hr : c.replaced = some id) (hdisp : c.transition.disposition = .primaryBidirectional)
  | alone (hp : readPrimary db = none) (hd : c.demoted = none) (hr : c.replaced = none)
      (hdisp : c.transition.disposition = .primaryBidirectional)

theorem prepare_accepts (hC : C.Lawful clean)
    (hop : op.isInitial = true) (h : op.prepare C L user db = some c) : Accepts C clean db c := by
  obtain ⟨r, ctx, rep, t, -, hctx, -, ht, hc⟩ := (prepare_initial_iff hop).mp h
  obtain ⟨htr, -, -, hdev, hrev, -⟩ := initialCommit_inv hc
  obtain ⟨-, -, -, -, rfl⟩ := readPreparationContext_eq_some.mp hctx
  obtain ⟨a, d, ha, -, -, rfl⟩ := prepareAccepted_eq_some.mp ht
  refine ⟨?_, ?_, ?_, ?_, ?_, ?_, hrev, _, hdev, rfl⟩ <;> rw [htr]
  · rfl
  · rfl
  · exact hC.accept_clean ha
  · rfl
  · rfl
  · exact hC.accept_skips ha

theorem readReplaced_some {rep : Option (SessionRow σ)} :
    readReplaced L user db (some id) = some rep ↔ ∃ row, rep = some row ∧
      db.primary = some row ∧ row.sessionId = some id ∧
      (∀ a, db.alternate = some a → a.sessionId ≠ some id) ∧
      skippedKeyTotal db ≤ L.maximumSkippedKeysPerAccount ∧
      row.repairState = .authenticatedRequestPending ∧ row.remoteUserId = user := by
  simp only [readReplaced, some_steps]
  constructor
  · rintro ⟨ctx, hctx, ⟨hd, hrep, hu⟩, rfl⟩
    obtain ⟨hp, hid, ha, ht, -⟩ := readInboundContext_primary.mp ⟨hctx, hd⟩
    exact ⟨_, rfl, hp, hid, ha, ht, hrep, hu⟩
  · rintro ⟨row, rfl, hp, hid, ha, ht, hrep, hu⟩
    have hin : readInboundContext L db id =
        some ⟨row, .primaryBidirectional, skippedKeyTotal db - row.skippedKeyCount⟩ :=
      (readInboundContext_primary.mpr ⟨hp, hid, ha, ht, rfl⟩).1
    exact ⟨_, hin, ⟨rfl, hrep, hu⟩, rfl⟩

theorem prepare_acceptance (hC : C.Lawful clean)
    (hop : op.isInitial = true) (h : op.prepare C L user db = some c)
    (hdem : c.demoted.isSome → c.transition.disposition = .primaryBidirectional)
    (hrpl : c.replaced.isSome → c.demoted = none ∧
      c.transition.disposition = .primaryBidirectional) : Acceptance db c := by
  obtain ⟨r, ctx, rep, t, -, hctx, hrep, ht, hc⟩ := (prepare_initial_iff hop).mp h
  obtain ⟨htr, hd, hr, -, -, -⟩ := initialCommit_inv hc
  obtain ⟨-, -, -, -, rfl⟩ := readPreparationContext_eq_some.mp hctx
  obtain ⟨a, d, ha, -, hdt, rfl⟩ := prepareAccepted_eq_some.mp ht
  have hdisp : c.transition.disposition = a.disposition := by rw [htr]
  cases r with
  | some id =>
    obtain ⟨row, rfl, hprim, hid, -, -, hpend, -⟩ := readReplaced_some.mp hrep
    obtain ⟨hdn, hdp⟩ := hrpl (by simp [hr])
    exact .replaces row id (readPrimary_of_named hprim hid) hpend hdn hr hdp
  | none =>
    cases hrep
    cases hp : readPrimary db with
    | none =>
      rw [hp] at ha
      refine .alone hp ?_ hr (hdisp.trans (hC.accept_alone ha))
      -- nothing was there to demote
      cases hu : a.updatedExistingSession with
      | none => rw [hu] at hdt; cases hdt; exact hd
      | some u => simp [demotedTransition, hu, hp] at hdt
    | some p =>
      rw [hp] at ha
      cases hu : a.updatedExistingSession with
      | none =>
        rw [hu] at hdt
        cases hdt
        refine .loses p hp hd hr ?_
        cases hda : a.disposition with
        | alternateReceiveOnly => exact hdisp.trans hda
        | primaryBidirectional =>
          have := hC.accept_wins ha hda
          simp [hu] at this
      | some u =>
        simp only [demotedTransition, hu, hp, some_steps, exists_eq_left'] at hdt
        obtain ⟨-, rfl⟩ := hdt
        exact .wins p _ hp hd hr (hdem (by simp [hd])) rfl rfl

theorem updated_of_demoted {existing : Option (SessionRow σ)} {updated : Option σ}
    (h : demotedTransition C existing updated = some none) : updated = none := by
  cases updated with
  | none => rfl
  | some u => simp [demotedTransition, bind_eq_some_iff] at h

variable {db₁ : SessionStore σ δ} {p' : SessionRow σ}
  (hC : C.Lawful clean) (hop : op.isInitial = true) (h : op.prepare C L user db = some c)
  (hp : readPrimary db = some p) (hd : c.demoted = none)
  (hdev : db₁.deviceState = db.deviceState) (hrev : db₁.stateRevision = db.stateRevision)
  (hp' : readPrimary db₁ = some p') (huser : p'.remoteUserId = p.remoteUserId)
  (hclean : clean p.opaqueState) (halt : db₁.alternate = none)
  (htot : skippedKeyTotal db₁ ≤ L.maximumSkippedKeysPerAccount)
include hC hop h hp hd hdev hrev hp' huser hclean halt htot

theorem prepare_loses_again (hr : c.replaced = none)
    (hdisp : c.transition.disposition = .alternateReceiveOnly)
    (hmade : C.Advances p.opaqueState p'.opaqueState ∨
      ∃ x d a n e, C.initiate x d a n = some e ∧ p'.opaqueState = e.nextSession) :
    op.prepare C L user db₁ = some c := by
  obtain ⟨r, ctx, rep, t, hprobe, hctx, hrep, ht, hc⟩ := (prepare_initial_iff hop).mp h
  obtain ⟨htr, hd', hr', -, -, -⟩ := initialCommit_inv hc
  obtain ⟨h0, hu, -, -, rfl⟩ := readPreparationContext_eq_some.mp hctx
  obtain ⟨a, d, ha, hne, hdt, rfl⟩ := prepareAccepted_eq_some.mp ht
  obtain rfl : r = none := hr'.symm.trans hr
  cases hrep
  rw [show d = none from hd'.symm.trans hd] at hdt hc
  simp only [Option.isSome_none, Bool.false_eq_true, if_false, hp, map_some] at ha
  have hloses : a.disposition = .alternateReceiveOnly := by rw [htr] at hdisp; exact hdisp
  have hagain : C.acceptInitial op.input db.deviceState (some p'.opaqueState) none = some a := by
    rcases hmade with hadv | ⟨x, d, auth, n, e, he, heq⟩
    · exact hC.advances_loses hadv hclean ha hloses
    · exact heq ▸ hC.initiate_loses he ha hloses
  refine (prepare_initial_iff hop).mpr ⟨none, _, none, _, hdev ▸ hprobe,
    readPreparationContext_eq_some.mpr ⟨hrev ▸ h0, ?_, by simp [halt], htot, rfl⟩, rfl,
    prepareAccepted_eq_some.mpr ⟨a, none, ?_, hne, ?_, rfl⟩, ?_⟩
  · intro q hq
    rw [← Option.some.inj (hp'.symm.trans hq), huser, hu p hp]
  · simpa [hp', hdev] using hagain
  · simp [updated_of_demoted hdt, demotedTransition]
  · simpa [hrev] using hc

theorem prepare_replaces_again (hr : c.replaced = some id)
    (hid : p'.sessionId = some id) (hpend : p'.repairState = .authenticatedRequestPending)
    (hopened : ∃ x n payload marker,
      C.decrypt x p.opaqueState n = some (.opened p'.opaqueState payload marker false)) :
    op.prepare C L user db₁ = some c := by
  obtain ⟨r, ctx, rep, t, hprobe, hctx, hrep, ht, hc⟩ := (prepare_initial_iff hop).mp h
  obtain ⟨htr, hd', hr', -, -, -⟩ := initialCommit_inv hc
  obtain ⟨h0, hu, -, -, rfl⟩ := readPreparationContext_eq_some.mp hctx
  obtain ⟨a, d, ha, hne, hdt, rfl⟩ := prepareAccepted_eq_some.mp ht
  obtain rfl : r = some id := hr'.symm.trans hr
  obtain ⟨row, rfl, hprim, -⟩ := readReplaced_some.mp hrep
  cases (readPrimary_eq_some.mp hp).1.symm.trans hprim
  rw [show d = none from hd'.symm.trans hd] at hdt hc
  obtain ⟨y, n, payload, marker, hdec⟩ := hopened
  have hagain := hC.opened_replaced hdec hclean ha
  have hu' := huser.trans (hu p hp)
  refine (prepare_initial_iff hop).mpr ⟨some id, _, some p', _, hdev ▸ hprobe,
    readPreparationContext_eq_some.mpr ⟨hrev ▸ h0, ?_, by simp [halt], htot, rfl⟩,
    readReplaced_some.mpr ⟨p', rfl, (readPrimary_eq_some.mp hp').1, hid, by simp [halt], htot,
      hpend, hu'⟩,
    prepareAccepted_eq_some.mpr ⟨a, none, ?_, hne, ?_, rfl⟩, ?_⟩
  · intro q hq
    rw [← Option.some.inj (hp'.symm.trans hq), hu']
  · simpa [hdev] using hagain
  · simp [updated_of_demoted hdt, demotedTransition]
  · simpa [hrev] using hc

end Plans

/-! ## Runs of a device -/

/-- What the plans rely on of a store: a row with a repair request out is not the first version of
its session. -/
structure StoreSound (C : SessionCrypto σ δ ι) (clean : σ → Prop) (db : SessionStore σ δ) :
    Prop where
  rows : ∀ p, db.primary = some p → RowSound C clean p
  pending : ∀ p, readPrimary db = some p → p.repairState = .authenticatedRequestPending →
    2 ≤ p.stateVersion

structure PlanSound (C : SessionCrypto σ δ ι) (clean : σ → Prop) (c : StoreCommit σ δ) :
    Prop where
  identified : C.sessionId c.transition.nextOpaqueState = c.transition.sessionId
  clean : c.transition.disposition = .primaryBidirectional → clean c.transition.nextOpaqueState
  pending : c.transition.repairState = .authenticatedRequestPending →
    c.transition.expectedStateVersion.isSome

/-- The store of a device, and the plans prepared from it that are not committed yet. -/
structure DeviceRun (σ δ : Type) where
  store : SessionStore σ δ
  plans : List (StoreCommit σ δ)

/-- One step: an operation prepares its plan, a plan is committed, the sessions are
invalidated, or something else in the database changes. -/
inductive DeviceStep (C : SessionCrypto σ δ ι) (L : StoreLimits) (user : String) :
    DeviceRun σ δ → DeviceRun σ δ → Prop
  | prepare {r : DeviceRun σ δ} {op : Operation ι} {c : StoreCommit σ δ}
      (h : op.prepare C L user r.store = some c) : DeviceStep C L user r ⟨r.store, c :: r.plans⟩
  | commit {r : DeviceRun σ δ} {c : StoreCommit σ δ} {db : SessionStore σ δ} (hc : c ∈ r.plans)
      (h : commitStore L r.store c = .ok db) : DeviceStep C L user r ⟨db, r.plans⟩
  | invalidate {r : DeviceRun σ δ} :
      DeviceStep C L user r ⟨{ r.store with primary := none, alternate := none }, r.plans⟩
  | other {r : DeviceRun σ δ} {db : SessionStore σ δ} (hp : db.primary = r.store.primary)
      (ha : db.alternate = r.store.alternate) : DeviceStep C L user r ⟨db, r.plans⟩

def deviceSystem (C : SessionCrypto σ δ ι) (L : StoreLimits) (user : String) :
    System (DeviceRun σ δ) where
  init := fun r => r.store.primary = none ∧ r.store.alternate = none ∧ r.plans = []
  step := DeviceStep C L user

section Sound

variable {C : SessionCrypto σ δ ι} {L : StoreLimits} {user : String} {clean : σ → Prop}
  {db db' : SessionStore σ δ} {c : StoreCommit σ δ}

theorem prepare_planSound (hC : C.Lawful clean) (hs : StoreSound C clean db)
    (h : op.prepare C L user db = some c) : PlanSound C clean c := by
  cases hop : op.isInitial with
  | true =>
    have ha := prepare_accepts hC hop h
    exact ⟨ha.identified, ha.clean, fun hp => by simp [ha.ready] at hp⟩
  | false =>
    cases hp : readPrimary db with
    | some p =>
      have hu := prepare_updates hC hs.rows hp hop h
      have hclean := (hs.rows p (readPrimary_eq_some.mp hp).1).clean
      refine ⟨hu.identified, fun _ => ?_, fun _ => by simp [hu.expected]⟩
      rcases hu.made with hadv | ⟨x, d, a, n, e, he, heq⟩
      · exact hC.advances_clean hadv hclean
      · exact heq ▸ hC.initiate_clean he
    | none =>
      have hst := (prepare_starts hC hs.rows hp hop h).2
      obtain ⟨x, d, a, n, e, he, heq⟩ := hst.made
      exact ⟨hst.identified, fun _ => heq ▸ hC.initiate_clean he, fun hp => by simp [hst.ready] at hp⟩

theorem Applied.primary_cases (h : Applied L db db' c) :
    (db'.primary = some c.transition.row ∧ validTransition L c.transition = true ∧
        c.transition.disposition = .primaryBidirectional) ∨
      db'.primary = db.primary ∨ db'.primary = none := by
  obtain ⟨db₁, db₂, db₃, h1, h2, h3, hp, -⟩ := h.sessions
  have hvalid : validTransition L c.transition = true := by
    simp only [applySessionTransition, ok_steps, not_not] at h3
    exact h3.choose_spec.1
  rw [hp]
  cases hdisp : c.transition.disposition with
  | primaryBidirectional =>
    refine .inl ⟨?_, hvalid, rfl⟩
    cases he : c.transition.expectedStateVersion with
    | none => exact (applySessionTransition_install h3 hdisp he).1
    | some v => exact (applySessionTransition_update h3 hdisp he).2.2.1
  | alternateReceiveOnly =>
    rw [(applySessionTransition_alternate h3 hdisp).2.2.1]
    refine .inr ?_
    cases hr : c.replaced with
    | some id =>
      rw [hr] at h2
      simp only [applyReplaced, eraseAuthenticatedRepairSession, ok_steps] at h2
      obtain ⟨-, -, -, -, rfl⟩ := h2
      exact .inr rfl
    | none =>
      rw [hr] at h2
      cases h2
      cases hd : c.demoted with
      | none => rw [hd] at h1; cases h1; exact .inl rfl
      | some d =>
        rw [hd] at h1
        simp only [applyDemoted, applyDemotedExistingTransition, ok_steps] at h1
        obtain ⟨-, -, -, -, -, -, rfl⟩ := h1
        exact .inr rfl

theorem Applied.sound (h : Applied L db db' c) (hs : StoreSound C clean db)
    (hc : PlanSound C clean c) : StoreSound C clean db' := by
  rcases h.primary_cases with ⟨hp, hvalid, hdisp⟩ | hp | hp
  · refine ⟨fun p hp' => ?_, fun p hp' hpend => ?_⟩
    · cases hp.symm.trans hp'
      refine ⟨?_, hc.clean hdisp⟩
      rintro id ⟨⟩
      exact hc.identified
    · cases hp.symm.trans (readPrimary_eq_some.mp hp').1
      obtain ⟨v, hv⟩ := Option.isSome_iff_exists.mp (hc.pending hpend)
      simp only [validTransition, validVersions, hv, decide_eq_true_eq] at hvalid
      simp only [SessionTransition.row]
      omega
  · refine ⟨fun p hp' => hs.rows p (hp ▸ hp'), fun p hp' => hs.pending p ?_⟩
    rwa [readPrimary, hp] at hp'
  · exact ⟨fun p hp' => by simp [hp] at hp', fun p hp' => by simp [readPrimary, hp] at hp'⟩

theorem StoreSound.of_none (h : db.primary = none) : StoreSound C clean db :=
  ⟨fun p hp => by simp [h] at hp, fun p hp => by simp [readPrimary, h] at hp⟩

theorem sound_inductive (hC : C.Lawful clean) : (deviceSystem C L user).Inductive fun r =>
    StoreSound C clean r.store ∧ ∀ c ∈ r.plans, PlanSound C clean c where
  init := by
    rintro r ⟨hp, -, hplans⟩
    exact ⟨.of_none hp, by simp [hplans]⟩
  step := by
    rintro r r' ⟨hs, hplans⟩ (⟨h⟩ | ⟨hc, h⟩ | _ | ⟨hp, -⟩)
    · exact ⟨hs, List.forall_mem_cons.mpr ⟨prepare_planSound hC hs h, hplans⟩⟩
    · refine ⟨?_, hplans⟩
      rcases commitStore_inv h with ⟨-, rfl⟩ | happ
      · exact hs
      · exact happ.sound hs (hplans _ hc)
    · exact ⟨StoreSound.of_none rfl, hplans⟩
    · exact ⟨⟨fun p h => hs.rows p (hp ▸ h), fun p h => hs.pending p (by
        simpa only [readPrimary, hp] using h)⟩, hplans⟩

end Sound

end CommPlatform.L4
