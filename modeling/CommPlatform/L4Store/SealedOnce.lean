import CommPlatform.Core.VersionedCell
import CommPlatform.L3Protocol.SendPosition
import CommPlatform.L4Store.Serialisability

/-!
# One ciphertext for each message key

Fan-out sends, repair requests and volatile seals read the primary session,
seal outside any transaction and commit later. A ciphertext is released when
its commit goes through: it is then in the outbox, or returned to the caller
of the volatile sealer.
-/
namespace CommPlatform.L4

open CommPlatform.Core L1 L2
open L3 hiding AcceptedInitial
open Option (all_eq_true bind_eq_some_iff bind_some map_eq_some_iff)

/-! ## What the operations seal -/

section Planned

variable {σ δ ι : Type}

/-- The frame that a volatile seal returns once its commit went through. -/
def volatileFrame (C : SessionCrypto σ δ ι) (L : StoreLimits) (user : String) (x : ι)
    (db : SessionStore σ δ) : Option Bytes := do
  let ctx ← readPreparationContext L user db
  let envelope ← prepareOutbound C x ctx
  return envelope.ciphertext

/-- The ciphertext an operation has sealed for the commit it prepared. -/
def Operation.ciphertext (C : SessionCrypto σ δ ι) (L : StoreLimits) (user : String)
    (db : SessionStore σ δ) (op : Operation ι) : StoreCommit σ δ → Option Bytes
  | .send c => some c.exactCiphertext
  | .volatileSeal _ => volatileFrame C L user op.input db
  | .receive _ | .volatileOpen _ => none

structure WritesNext (C : SessionCrypto σ δ ι) (read : Option (SessionRow σ))
    (c : StoreCommit σ δ) : Prop where
  identified : C.sessionId c.transition.nextOpaqueState = c.transition.sessionId
  primary : c.transition.disposition = .primaryBidirectional
  expected : c.transition.expectedStateVersion = read.map (·.stateVersion)
  next : c.transition.nextStateVersion = read.elim 0 (·.stateVersion) + 1
  demoted : c.demoted = none
  replaced : c.replaced = none

/-- Where the session of a commit comes from, and what was sealed on the way. -/
inductive Planned (C : SessionCrypto σ δ ι) (db : SessionStore σ δ) (c : StoreCommit σ δ) :
    Option Bytes → Prop
  | seals {p : SessionRow σ} {e : SealedEnvelope σ} (hp : readPrimary db = some p)
      (he : (∃ x n, C.encrypt x p.opaqueState n = some e) ∨
        ∃ x n, C.createRepairRequest x p.opaqueState n = some e)
      (hw : WritesNext C (some p) c) (hn : c.transition.nextOpaqueState = e.nextSession) :
      Planned C db c (some e.ciphertext)
  | initiates {x : ι} {d : δ} {a : Option Bytes} {n : Nat} {e : SealedEnvelope σ}
      (he : C.initiate x d a n = some e) (hw : WritesNext C (readPrimary db) c)
      (hn : c.transition.nextOpaqueState = e.nextSession) : Planned C db c (some e.ciphertext)
  | opens {p : SessionRow σ} {x : ι} {n : Nat} {next : σ} {payload : Bytes} {marker : Block 32}
      {control : Bool} (hp : readPrimary db = some p)
      (ho : C.decrypt x p.opaqueState n = some (.opened next payload marker control))
      (hn : c.transition.nextOpaqueState = next ∨
        ∃ a, C.consumeRepairRequest next = some (c.transition.nextOpaqueState, a))
      (hw : WritesNext C (some p) c) : Planned C db c none
  | accepts {x : ι} {d : δ} {existing replaced : Option σ} {a : AcceptedInitial σ δ}
      (ha : C.acceptInitial x d existing replaced = some a)
      (hid : C.sessionId c.transition.nextOpaqueState = c.transition.sessionId)
      (hn : c.transition.nextOpaqueState = a.nextSession)
      (he : c.transition.expectedStateVersion = none) : Planned C db c none

variable {C : SessionCrypto σ δ ι} {L : StoreLimits} {user : String} {db : SessionStore σ δ}
  {c : StoreCommit σ δ}

theorem prepareOutbound_planned {x : ι} {e : SealedEnvelope σ}
    {revision skipped : Nat} (h : prepareOutbound C x ⟨readPrimary db, db.alternate,
      db.deviceState, revision, skipped⟩ = some e) (hw : WritesNext C (readPrimary db) c)
    (hn : c.transition.nextOpaqueState = e.nextSession) : Planned C db c (some e.ciphertext) := by
  unfold prepareOutbound at h
  cases hp : readPrimary db with
  | none =>
    rw [hp] at h
    exact .initiates h hw hn
  | some p =>
    simp only [hp] at h
    split at h
    · exact .seals hp (.inl ⟨_, _, h⟩) (hp ▸ hw) hn
    · exact .initiates h hw hn
    · cases h

theorem prepareRepairRequest_planned {x : ι} {o m : String} {c : SendCommit σ}
    (h : prepareRepairRequest C L user x o m db = some c) :
    Planned C db (.send c) (some c.exactCiphertext) := by
  simp only [prepareRepairRequest, some_steps, readPreparationContext_eq_some] at h
  obtain ⟨-, ctx, ⟨-, -, -, -, rfl⟩, session, hs, -, e, he, rfl⟩ := h
  exact .seals hs (.inr ⟨_, _, he⟩) ⟨rfl, rfl, rfl, rfl, rfl, rfl⟩ rfl

theorem openedSession_next {p : SessionRow σ} {next : σ} {control : Bool}
    {o : σ × RepairState × Option Bytes} (h : openedSession C p next control = some o) :
    o.1 = next ∨ ∃ a, C.consumeRepairRequest next = some (o.1, a) := by
  cases control with
  | false =>
    cases h
    exact .inl rfl
  | true =>
    simp only [openedSession, some_steps] at h
    obtain ⟨⟨s', a⟩, hc, rfl⟩ := h
    exact .inr ⟨a, hc⟩

variable {op : Operation ι}

theorem prepareAccepted_planned
    (h : op.prepare C L user db = some c) (hop : op.isInitial = true) : Planned C db c none := by
  obtain ⟨r, ctx, rep, t, -, -, -, ht, hc⟩ := (prepare_initial_iff hop).mp h
  obtain ⟨a, demoted, ha, -, -, rfl⟩ := prepareAccepted_eq_some.mp ht
  obtain ⟨htr, -⟩ := initialCommit_inv hc
  exact .accepts ha (by rw [htr]; rfl) (by rw [htr]; rfl) (by rw [htr]; rfl)

theorem prepare_planned (h : op.prepare C L user db = some c) :
    Planned C db c (op.ciphertext C L user db c) := by
  cases op with
  | fanOutSend x o ev payload =>
    obtain ⟨s, hs, rfl⟩ := map_eq_some_iff.mp h
    simp only [prepareSend, some_steps, readPreparationContext_eq_some] at hs
    obtain ⟨-, ctx, ⟨-, -, -, -, rfl⟩, e, he, rfl⟩ := hs
    exact prepareOutbound_planned he ⟨rfl, rfl, rfl, rfl, rfl, rfl⟩ rfl
  | requestRepair x o =>
    obtain ⟨s, hs, rfl⟩ := map_eq_some_iff.mp h
    exact prepareRepairRequest_planned hs
  | receiveInitial x e | openVolatileInitial x =>
    have hplan := prepareAccepted_planned h rfl
    obtain ⟨s, -, rfl⟩ := map_eq_some_iff.mp h
    exact hplan
  | sealVolatile x =>
    obtain ⟨s, hs, rfl⟩ := map_eq_some_iff.mp h
    simp only [prepareVolatileSeal, some_steps] at hs
    obtain ⟨ctx, hctx, session, hsession, -, e, he, rfl⟩ := hs
    have hframe : volatileFrame C L user x db = some e.ciphertext := by
      simp [volatileFrame, hctx, he]
    obtain ⟨-, -, -, -, rfl⟩ := readPreparationContext_eq_some.mp hctx
    have hread := hsession
    change Planned C db _ (volatileFrame C L user x db)
    rw [hframe]
    exact prepareOutbound_planned he (hread ▸ ⟨rfl, rfl, rfl, rfl, rfl, rfl⟩) rfl
  | receiveRegular x envelopeId id =>
    simp only [Operation.prepare, prepareRegular, some_steps] at h
    obtain ⟨ctx, hctx, hdisp, opening, hd, h⟩ := h
    obtain ⟨hprim, hsid, -⟩ := readInboundContext_primary.mp ⟨hctx, hdisp⟩
    have hread := readPrimary_of_named hprim hsid
    cases opening with
    | repairRequired =>
      simp only [some_steps] at h
      obtain ⟨s, hs, rfl⟩ := h
      exact prepareRepairRequest_planned hs
    | opened next payload marker control =>
      simp only [some_steps] at h
      obtain ⟨-, o, ho, rfl⟩ := h
      exact .opens hread hd (openedSession_next ho) ⟨rfl, rfl, rfl, rfl, rfl, rfl⟩
  | openVolatileRegular x id =>
    simp only [Operation.prepare, prepareVolatileRegular, some_steps] at h
    obtain ⟨ctx, hctx, hdisp, opening, hd, h⟩ := h
    obtain ⟨hprim, hsid, -⟩ := readInboundContext_primary.mp ⟨hctx, hdisp⟩
    have hread := readPrimary_of_named hprim hsid
    cases opening with
    | repairRequired =>
      simp only [some_steps] at h
      obtain ⟨s, hs, rfl⟩ := h
      exact prepareRepairRequest_planned hs
    | opened next payload marker control =>
      simp only [some_steps] at h
      obtain ⟨-, rfl⟩ := h
      exact .opens hread hd (.inl rfl) ⟨rfl, rfl, rfl, rfl, rfl, rfl⟩

end Planned

variable {e : SealedEnvelope NativeSession}

/-! ## Where the sessions stand -/

section Positions

variable {P : CryptoProvider} {base : DeviceState} {me peer : Block 16} {k : NativeSession}

/-- Where a stored session stands, if it can be used. -/
def sendPosition (P : CryptoProvider) (base : DeviceState) (k : NativeSession) :
    Option (SendingChain × Nat) :=
  (RatchetState.decode P base k.opaqueState).toOption.bind RatchetState.position

variable {s : RatchetState}

theorem sendPosition_of_decode
    (h : RatchetState.decode P base k.opaqueState = .ok s) : sendPosition P base k = s.position := by
  simp [sendPosition, h, Except.toOption]

theorem sendPosition_of_encode {q : SendingChain × Nat}
    (h : s.encode P base = .ok k.opaqueState) (hq : sendPosition P base k = some q) :
    s.position = some q := by
  obtain ⟨s', hs', hpos⟩ := bind_eq_some_iff.mp hq
  cases decode_encode_eq h (ok_of_toOption hs')
  exact hpos

structure SealsAt (P : CryptoProvider) (base : DeviceState) (before : Option (SendingChain × Nat))
    (e : SealedEnvelope NativeSession) (c : SendingChain) (n : Nat) : Prop where
  key : sealKey e.ciphertext = some (c, n)
  after : ∀ q, sendPosition P base e.nextSession = some q → q = (c, n + 1)
  before : before = some (c, n) ∨ n = 0

variable {n : Nat}

theorem sealsAt_of_seals {before : Option (SendingChain × Nat)} {o : SessionOutput}
    {ciphertext : Bytes} {c : SendingChain} (h : Seals before s ciphertext c n)
    (ho : SessionOutput.ofState P base s ciphertext = .ok o) :
    SealsAt P base before ⟨SessionOutput.session o, o.payload⟩ c n := by
  obtain ⟨henc, hst, hpay⟩ := SessionOutput.ofState_eq_ok.mp ho
  refine ⟨hpay ▸ h.key, fun q hq => ?_, h.before⟩
  have := sendPosition_of_encode henc hq
  exact Option.some.inj (this.symm.trans h.after)

theorem native_sealsAt (he : (∃ x n, nativeEncrypt P base peer x k n = some e) ∨
      ∃ x n, nativeCreateRepair P base peer x k n = some e) :
    e.nextSession.sessionId = k.sessionId ∧
      ∃ c n, SealsAt P base (sendPosition P base k) e c n := by
  rcases he with ⟨x, n, he⟩ | ⟨x, n, he⟩
  · obtain ⟨o, ho, hid, rfl⟩ := encryptLike_inv he
    simp only [operationEncrypt, bind_eq_ok] at ho
    obtain ⟨s, hs, t, ht, ho⟩ := ho
    obtain ⟨c, m, hseals⟩ := ratchetEncrypt_seals ht
    exact ⟨hid, c, m, sendPosition_of_decode hs ▸ sealsAt_of_seals hseals ho⟩
  · obtain ⟨o, ho, hid, rfl⟩ := encryptLike_inv he
    simp only [operationCreateRepair, bind_eq_ok] at ho
    obtain ⟨s, hs, t, ht, ho⟩ := ho
    obtain ⟨c, m, hseals⟩ := createRepair_seals ht
    exact ⟨hid, c, m, sendPosition_of_decode hs ▸ sealsAt_of_seals hseals ho⟩

variable {x : NativeInput} {d : OwnDevice base}

theorem nativeInitiate_sealsAt {a : Option Bytes}
    (h : nativeInitiate P base me peer x d a n = some e) :
    ∃ c, SealsAt P base none e c 0 := by
  simp only [nativeInitiate, some_steps, toOption_eq_some, operationInitiate, bind_eq_ok] at h
  obtain ⟨-, o, ⟨⟨s, env⟩, hs, ho⟩, rfl⟩ := h
  obtain ⟨c, hseals⟩ := initiate_seals hs
  obtain ⟨henc, hst, hpay⟩ := SessionOutput.ofState_eq_ok.mp ho
  refine ⟨c, hpay ▸ hseals.key, fun q hq => ?_, .inr rfl⟩
  have := sendPosition_of_encode (encode_congr d.2 _ ▸ henc) hq
  exact Option.some.inj (this.symm.trans hseals.after)

theorem nativeDecrypt_position {next k' : NativeSession}
    {payload : Bytes} {marker : Block 32} {control : Bool}
    (h : nativeDecrypt P base me x k n = some (.opened next payload marker control))
    (hn : k' = next ∨ ∃ a, nativeConsumeRepair P base next = some (k', a)) :
    k'.sessionId = k.sessionId ∧ ∀ q, sendPosition P base k' = some q →
      sendPosition P base k = some q ∨ q.2 = 0 := by
  obtain ⟨s, t, hs, ht, henc, hid, -⟩ := nativeDecrypt_inv h
  have hopen : ∀ q, t.state.position = some q → sendPosition P base k = some q ∨ q.2 = 0 := by
    intro q hq
    rcases ratchetDecrypt_position ht with hpos | ⟨c, hpos⟩
    · exact .inl ((sendPosition_of_decode hs).trans (hpos ▸ hq))
    · cases hpos.symm.trans hq
      exact .inr rfl
  rcases hn with rfl | ⟨a, ha⟩
  · exact ⟨hid, fun q hq => hopen q (sendPosition_of_encode henc hq)⟩
  · obtain ⟨s', r, hs', hr, henc', hid'⟩ := nativeConsumeRepair_inv ha
    cases decode_encode_eq henc hs'
    refine ⟨hid'.trans hid, fun q hq => hopen q ?_⟩
    rw [← consumeRepairAuthorization_position hr]
    exact sendPosition_of_encode henc' hq

theorem nativeAccept_position
    {existing replaced : Option NativeSession} {a : AcceptedInitial NativeSession (OwnDevice base)}
    (h : nativeAccept P base me peer x d existing replaced = some a) :
    sendPosition P base a.nextSession = none := by
  obtain ⟨probe, acc, disp, -, -, ha, -, -, rfl⟩ := nativeAccept_eq_some.mp h
  obtain ⟨-, _, header, th, root, chain, spk, ex, -, -, -, -, -, -, -, hs, henc⟩ :=
    acceptInitial_inv ha
  have henc' := encode_congr d.2 _ ▸ henc
  refine Option.eq_none_iff_forall_ne_some.mpr fun q hq => ?_
  have hpos := sendPosition_of_encode henc' hq
  simp [hs, RatchetState.position, acceptedSession] at hpos

end Positions

/-! ## Runs -/

/-- A prepared commit with the ciphertext sealed for it and the primary row that was read. -/
structure SealPlan (base : DeviceState) where
  commit : StoreCommit NativeSession (OwnDevice base)
  ciphertext : Option Bytes
  read : Option (SessionRow NativeSession)

structure SealRun (base : DeviceState) where
  store : SessionStore NativeSession (OwnDevice base)
  plans : List (SealPlan base)
  released : List Bytes

namespace SealPlan

variable {base : DeviceState} (P : CryptoProvider) (p : SealPlan base)

def sessionId : SessionId := p.commit.transition.sessionId

def startsSession : Bool :=
  p.commit.transition.expectedStateVersion = none ∨
    p.read.bind (·.sessionId) ≠ some p.sessionId

def readPosition : Option (SendingChain × Nat) :=
  p.read.bind fun row => sendPosition P base row.opaqueState

def position : Option (SendingChain × Nat) :=
  match p.ciphertext with
  | some c => sealKey c
  | none => sendPosition P base p.commit.transition.nextOpaqueState

def continues : Bool := !p.startsSession && p.position P = p.readPosition P

/-- The chain the plan draws the key of, if it does not go on with the one it read. -/
def begins : Option SendingChain :=
  if p.continues P then none else (p.position P).map Prod.fst

/-- What the commit hands out when it takes the store from `db` to `db'`: the new rows of the
outbox, or the frame of a volatile seal. -/
def releases (db db' : SessionStore NativeSession (OwnDevice base)) : List Bytes :=
  match p.commit with
  | .volatileSeal _ => p.ciphertext.toList
  | .send _ | .receive _ | .volatileOpen _ =>
    (db'.outbox.drop db.outbox.length).map (·.exactCiphertext)

end SealPlan

namespace SealRun

variable {base : DeviceState} (P : CryptoProvider) (r : SealRun base)

/-- The session id is of no session that is stored, or that a pending plan read or leaves. -/
def freshId (id : SessionId) : Bool :=
  (readPrimary r.store).all (·.sessionId ≠ some id) &&
    r.plans.all fun q => q.sessionId ≠ id && q.read.all (·.sessionId ≠ some id)

/-- Nothing was released on the chain, and neither the stored session nor a pending plan is on it. -/
def freshChain (c : SendingChain) : Bool :=
  r.released.all (fun e => (sealKey e).map Prod.fst ≠ some c) &&
    (readPrimary r.store).all (fun row =>
      (sendPosition P base row.opaqueState).map Prod.fst ≠ some c) &&
    r.plans.all fun q => q.begins P ≠ some c && (q.readPosition P).map Prod.fst ≠ some c

/-- The session ids and ratchet keys that a plan draws have not been drawn before. -/
def drawsFresh (p : SealPlan base) : Bool :=
  (!p.startsSession || r.freshId p.sessionId) && (p.begins P).all (r.freshChain P)

/-- A commit that updates the primary row finds the session there that was read. -/
def findsSession (p : SealPlan base) : Bool :=
  p.commit.transition.expectedStateVersion = none ∨
    r.store.primary.bind (·.sessionId) = p.read.bind (·.sessionId)

end SealRun

inductive SealEvent (base : DeviceState)
  | prepare (op : Operation NativeInput)
  | commit (i : Nat)
  /-- the process stops; what was prepared is lost -/
  | stop
  /-- the sessions with the remote device are deleted -/
  | invalidate
  /-- a transaction on the other tables -/
  | other (db : SessionStore NativeSession (OwnDevice base))

section Runs

variable (P : CryptoProvider) (base : DeviceState) (me peer : Block 16) (L : StoreLimits)
  (user : String) (allowed : SealRun base → SealPlan base → Bool)

/-- The plan an operation makes of the store it reads. -/
def Operation.sealPlan (db : SessionStore NativeSession (OwnDevice base))
    (op : Operation NativeInput) : Option (SealPlan base) := do
  let c ← op.prepare (nativeCrypto P base me peer) L user db
  return ⟨c, op.ciphertext (nativeCrypto P base me peer) L user db c, readPrimary db⟩

/-- One event. A commit that is refused is given up: the operation reads and seals again. -/
def SealRun.next (r : SealRun base) : SealEvent base → Option (SealRun base)
  | .prepare op => do
    let p ← op.sealPlan P base me peer L user r.store
    guard (r.drawsFresh P p)
    return { r with plans := p :: r.plans }
  | .commit i => do
    let p ← r.plans[i]?
    guard (allowed r p)
    match commitStore L r.store p.commit with
    | .error _ => return { r with plans := r.plans.eraseIdx i }
    | .ok db => return ⟨db, r.plans.eraseIdx i, p.releases r.store db ++ r.released⟩
  | .stop => return { r with plans := [] }
  | .invalidate => return { r with store := { r.store with primary := none, alternate := none } }
  | .other db => do
    guard (db.primary = r.store.primary ∧ db.alternate = r.store.alternate)
    return { r with store := db }

def SealRun.run (r : SealRun base) (es : List (SealEvent base)) : Option (SealRun base) :=
  es.foldlM (SealRun.next P base me peer L user allowed) r

/-- The runs in which every commit is one that `allowed` admits. -/
def sealSystem : System (SealRun base) where
  init r := r.store.primary = none ∧ r.store.alternate = none ∧ r.plans = [] ∧ r.released = []
  step r r' := ∃ e, r.next P base me peer L user allowed e = some r'

variable {P base me peer L user allowed}

theorem SealRun.run_reachable {es : List (SealEvent base)} {r r' : SealRun base}
    (hr : (sealSystem P base me peer L user allowed).Reachable r)
    (h : r.run P base me peer L user allowed es = some r') :
    (sealSystem P base me peer L user allowed).Reachable r' := by
  induction es generalizing r with
  | nil => exact Option.some.inj h ▸ hr
  | cons e es ih =>
    obtain ⟨r₁, h₁, h⟩ := bind_eq_some_iff.mp h
    exact ih (.step hr ⟨e, h₁⟩) h

end Runs

/-! ## The runs as runs of a versioned cell -/

section Simulation

variable {P : CryptoProvider} {base : DeviceState} {me peer : Block 16} {L : StoreLimits}
  {user : String}

def rowCell (row : SessionRow NativeSession) : Option (VersionedCell.Cell SessionId NativeSession) :=
  row.sessionId.map fun id => ⟨id, row.stateVersion, row.opaqueState⟩

/-- What a plan does to the chain of the session. -/
def SealPlan.effect (P : CryptoProvider) (p : SealPlan base) : VersionedCell.Effect SendingChain :=
  match p.ciphertext, p.position P with
  | _, none => .silent
  | some _, some (c, n) => if p.continues P then .continues c n else .starts c
  | none, some (c, _) => if p.continues P then .silent else .draws c

def SealPlan.cellPlan (P : CryptoProvider) (p : SealPlan base) :
    VersionedCell.Plan SessionId NativeSession SendingChain where
  read := p.read.bind rowCell
  next := ⟨p.sessionId, p.commit.transition.nextStateVersion, p.commit.transition.nextOpaqueState⟩
  effect := p.effect P

theorem SealPlan.effect_begins (p : SealPlan base) : (p.effect P).begins = p.begins P := by
  unfold effect begins
  split
  next h => simp [h, VersionedCell.Effect.begins]
  next h => split <;> simp [h, VersionedCell.Effect.begins]
  next h => split <;> simp [h, VersionedCell.Effect.begins]

structure SealPlan.Sound (P : CryptoProvider) (p : SealPlan base) : Prop where
  identified : p.commit.transition.nextOpaqueState.sessionId = p.sessionId
  made : (p.cellPlan P).Made (sendPosition P base)
  emits : (p.effect P).emits.toList.map some = p.ciphertext.toList.map sealKey
  queued : (∃ v, p.commit = .volatileSeal v) ∨
    p.commit.queued.map (·.exactCiphertext) = p.ciphertext.toList
  update : ∀ v, p.commit.transition.expectedStateVersion = some v →
    ∃ row, p.read = some row ∧ row.sessionId.isSome ∧ row.stateVersion = v ∧
      p.commit.transition.nextStateVersion = v + 1
  plain : p.commit.transition.disposition = .primaryBidirectional ∧ p.commit.demoted = none ∧
    p.commit.replaced = none ∨
    p.ciphertext = none ∧ p.commit.transition.expectedStateVersion = none
  install : p.commit.transition.expectedStateVersion = none → (p.cellPlan P).IsNew

theorem SealPlan.continues_iff (p : SealPlan base) :
    p.continues P = true ↔ p.startsSession = false ∧ p.position P = p.readPosition P := by
  simp [continues]

variable {p : SealPlan base}

theorem SealPlan.read_of_continues (h : p.startsSession = false) :
    ∃ row, p.read = some row ∧ row.sessionId = some p.sessionId := by
  simp only [startsSession, decide_eq_false_iff_not, not_or, not_not] at h
  exact bind_eq_some_iff.mp h.2

theorem SealPlan.made_seals {c : SendingChain} {n : Nat}
    (h : SealsAt P base (p.readPosition P) e c n)
    (hc : p.ciphertext = some e.ciphertext)
    (hn : p.commit.transition.nextOpaqueState = e.nextSession)
    (hstart : p.startsSession = true → n = 0) :
    (p.cellPlan P).Made (sendPosition P base) ∧ (p.effect P).emits = some (c, n) := by
  have hpos : p.position P = some (c, n) := by simp [position, hc, h.key]
  by_cases hcont : p.continues P = true
  · have heff : p.effect P = .continues c n := by simp [effect, hc, hpos, hcont]
    obtain ⟨hold, hread⟩ := p.continues_iff.mp hcont
    obtain ⟨row, hrow, hid⟩ := read_of_continues hold
    refine ⟨?_, by rw [heff]; rfl⟩
    simp only [VersionedCell.Plan.Made, cellPlan, heff, hrow, bind_some]
    refine ⟨⟨p.sessionId, row.stateVersion, row.opaqueState⟩, by simp [rowCell, hid], rfl, ?_, ?_⟩
    · rw [hpos] at hread
      simpa [readPosition, hrow] using hread.symm
    · rw [hn]
      exact h.after
  · have heff : p.effect P = .starts c := by simp [effect, hc, hpos, hcont]
    have hzero : n = 0 := by
      by_contra hne
      have hold : p.startsSession = false := by
        by_contra hs
        exact hne (hstart (by simpa using hs))
      exact hcont (p.continues_iff.mpr ⟨hold, hpos.trans (h.before.resolve_right hne).symm⟩)
    subst hzero
    refine ⟨?_, by rw [heff]; rfl⟩
    simp only [VersionedCell.Plan.Made, cellPlan, heff]
    rw [hn]
    exact h.after

theorem SealPlan.made_opens (hc : p.ciphertext = none)
    (h : ∀ q, sendPosition P base p.commit.transition.nextOpaqueState = some q →
      p.startsSession = false ∧ (p.readPosition P = some q ∨ q.2 = 0)) :
    (p.cellPlan P).Made (sendPosition P base) ∧ (p.effect P).emits = none := by
  cases hq : sendPosition P base p.commit.transition.nextOpaqueState with
  | none =>
    have heff : p.effect P = .silent := by simp [effect, position, hc, hq]
    refine ⟨?_, by rw [heff]; rfl⟩
    simp [VersionedCell.Plan.Made, cellPlan, heff, hq]
  | some q =>
    obtain ⟨c, n⟩ := q
    obtain ⟨hold, hpos⟩ := h _ hq
    have hposition : p.position P = some (c, n) := by simp [position, hc, hq]
    by_cases hcont : p.continues P = true
    · have heff : p.effect P = .silent := by simp [effect, hc, hposition, hcont]
      obtain ⟨row, hrow, hid⟩ := read_of_continues hold
      have hread := hposition.symm.trans (p.continues_iff.mp hcont).2
      refine ⟨?_, by rw [heff]; rfl⟩
      simp only [VersionedCell.Plan.Made, cellPlan, heff, hrow, bind_some, hq]
      rintro _ ⟨⟩
      refine ⟨⟨p.sessionId, row.stateVersion, row.opaqueState⟩, by simp [rowCell, hid], rfl, ?_⟩
      simpa [readPosition, hrow] using hread.symm
    · have heff : p.effect P = .draws c := by simp [effect, hc, hposition, hcont]
      have hzero := hpos.resolve_left fun hread =>
        hcont (p.continues_iff.mpr ⟨hold, hposition.trans hread.symm⟩)
      subst hzero
      refine ⟨?_, by rw [heff]; rfl⟩
      simp [VersionedCell.Plan.Made, cellPlan, heff, hq]

/-- What every plan has, wherever its session comes from. -/
theorem Planned.commit_cases {σ δ ι : Type} {C : SessionCrypto σ δ ι} {db : SessionStore σ δ}
    {c : StoreCommit σ δ} {o : Option Bytes} (h : Planned C db c o) :
    C.sessionId c.transition.nextOpaqueState = c.transition.sessionId ∧
      (WritesNext C (readPrimary db) c ∨ o = none ∧ c.transition.expectedStateVersion = none) := by
  cases h with
  | seals hp _ hw _ => exact ⟨hw.identified, .inl (hp ▸ hw)⟩
  | initiates _ hw _ => exact ⟨hw.identified, .inl hw⟩
  | opens hp _ _ hw => exact ⟨hw.identified, .inl (hp ▸ hw)⟩
  | accepts _ hid _ he => exact ⟨hid, .inr ⟨rfl, he⟩⟩

variable {db : SessionStore NativeSession (OwnDevice base)}

theorem startsSession_eq_false {row : SessionRow NativeSession}
    (hread : p.read = some row) (hrow : row.sessionId.isSome)
    (hid : Identified (nativeCrypto P base me peer) row)
    (hnext : p.sessionId = row.opaqueState.sessionId)
    (he : p.commit.transition.expectedStateVersion.isSome) : p.startsSession = false := by
  obtain ⟨id, hsid⟩ := Option.isSome_iff_exists.mp hrow
  have := hid id hsid
  simp only [SealPlan.startsSession, decide_eq_false_iff_not, not_or, not_not, hread,
    bind_some, hsid, hnext]
  exact ⟨fun h => by simp [h] at he, by rw [← this]; rfl⟩

theorem Planned.made (h : Planned (nativeCrypto P base me peer) db p.commit p.ciphertext)
    (hread : p.read = readPrimary db)
    (hid : ∀ row, db.primary = some row → Identified (nativeCrypto P base me peer) row) :
    (p.cellPlan P).Made (sendPosition P base) ∧
      (p.effect P).emits.toList.map some = p.ciphertext.toList.map sealKey := by
  obtain ⟨commit, ciphertext, read⟩ := p
  subst hread
  cases h with
  | @seals row e hp he hw hn =>
    obtain ⟨hsame, c, n, hseals⟩ := native_sealsAt he
    obtain ⟨hrow, hsome⟩ := readPrimary_eq_some.mp hp
    have hold : SealPlan.startsSession ⟨commit, some e.ciphertext, readPrimary db⟩ = false := by
      refine startsSession_eq_false hp hsome (hid row hrow) ?_ (by simp [hw.expected])
      rw [← hsame, ← hn]
      exact hw.identified.symm
    have hmade := SealPlan.made_seals (p := ⟨commit, some e.ciphertext, readPrimary db⟩)
      (by simpa [SealPlan.readPosition, hp] using hseals) rfl hn (fun h => by simp [hold] at h)
    exact ⟨hmade.1, by rw [hmade.2]; simp [hseals.key]⟩
  | @initiates x d a n e he hw hn =>
    obtain ⟨c, hseals⟩ := nativeInitiate_sealsAt he
    have hmade := SealPlan.made_seals (p := ⟨commit, some e.ciphertext, readPrimary db⟩)
      ⟨hseals.key, hseals.after, .inr rfl⟩ rfl hn (fun _ => rfl)
    exact ⟨hmade.1, by rw [hmade.2]; simp [hseals.key]⟩
  | @opens row x n next payload marker control hp ho hn hw =>
    obtain ⟨hsame, hpos⟩ := nativeDecrypt_position ho hn
    obtain ⟨hrow, hsome⟩ := readPrimary_eq_some.mp hp
    have hold : SealPlan.startsSession ⟨commit, none, readPrimary db⟩ = false := by
      refine startsSession_eq_false hp hsome (hid row hrow) ?_ (by simp [hw.expected])
      rw [← hsame]
      exact hw.identified.symm
    have hmade := SealPlan.made_opens (P := P) (p := ⟨commit, none, readPrimary db⟩) rfl
      (fun q hq => ⟨hold, by simpa [SealPlan.readPosition, hp] using hpos q hq⟩)
    exact ⟨hmade.1, by rw [hmade.2]; rfl⟩
  | accepts ha hid hn he =>
    have hnone := nativeAccept_position ha
    have hmade := SealPlan.made_opens (P := P) (p := ⟨commit, none, readPrimary db⟩) rfl
      (fun q hq => by simp [hn, hnone] at hq)
    exact ⟨hmade.1, by rw [hmade.2]; rfl⟩

variable {r : SealRun base}

theorem isNew_of_drawsFresh (hread : p.read = readPrimary r.store)
    (hnone : p.commit.transition.expectedStateVersion = none)
    (hfresh : r.drawsFresh P p = true) : (p.cellPlan P).IsNew := by
  have hstart : p.startsSession = true := by simp [SealPlan.startsSession, hnone]
  simp only [SealRun.drawsFresh, hstart, Bool.not_true, Bool.false_or, Bool.and_eq_true,
    SealRun.freshId] at hfresh
  intro cell hcell heq
  obtain ⟨row, hrow, hcell⟩ := bind_eq_some_iff.mp hcell
  obtain ⟨id, hrid, rfl⟩ := map_eq_some_iff.mp hcell
  have hne := hfresh.1.1
  simp only [← hread, hrow, Option.all_some, decide_eq_true_eq] at hne
  exact hne (hrid.trans (congrArg some heq))

variable {op : Operation NativeInput}

theorem sealPlan_sound (h : op.sealPlan P base me peer L user r.store = some p)
    (hid : ∀ row, r.store.primary = some row → Identified (nativeCrypto P base me peer) row)
    (hfresh : r.drawsFresh P p = true) : p.Sound P ∧ p.read = readPrimary r.store := by
  simp only [Operation.sealPlan, some_steps] at h
  obtain ⟨c, hc, rfl⟩ := h
  have hplan := prepare_planned hc
  obtain ⟨hident, hcases⟩ := hplan.commit_cases
  have hmade := hplan.made (p := ⟨c, _, readPrimary r.store⟩) rfl hid
  refine ⟨⟨hident, hmade.1, hmade.2, ?_, ?_, ?_, ?_⟩, rfl⟩
  · cases c with
    | volatileSeal c => exact .inl ⟨c, rfl⟩
    | send c | receive c | volatileOpen c => exact .inr rfl
  · intro v hv
    rcases hcases with hw | ⟨-, hnone⟩
    · obtain ⟨row, hrow, rfl⟩ := map_eq_some_iff.mp (hw.expected.symm.trans hv)
      exact ⟨row, hrow, (readPrimary_eq_some.mp hrow).2, rfl, by simpa [hrow] using hw.next⟩
    · cases hnone.symm.trans hv
  · rcases hcases with hw | h
    · exact .inl ⟨hw.primary, hw.demoted, hw.replaced⟩
    · exact .inr h
  · exact fun hnone => isNew_of_drawsFresh rfl hnone hfresh

structure Tracks (P : CryptoProvider) (r : SealRun base)
    (a : VersionedCell.Run SessionId NativeSession SendingChain) : Prop where
  cell : a.cell = (readPrimary r.store).bind rowCell
  plans : a.plans = r.plans.map (·.cellPlan P)
  emitted : a.emitted.map some = r.released.map sealKey

variable {a : VersionedCell.Run SessionId NativeSession SendingChain}

structure SealRun.Inv (P : CryptoProvider) (me peer : Block 16) (r : SealRun base) : Prop where
  rows : ∀ row, r.store.primary = some row → Identified (nativeCrypto P base me peer) row
  plans : ∀ p ∈ r.plans, p.Sound P
  tracked : ∃ a, (VersionedCell.system (sendPosition P base)).Reachable a ∧ Tracks P r a

theorem Tracks.freshId (h : Tracks P r a) {id : SessionId} (hf : r.freshId id = true) : a.FreshId id
    := by
  simp only [SealRun.freshId, Bool.and_eq_true, List.all_eq_true, all_eq_true,
    decide_eq_true_eq] at hf
  have hcell : ∀ (o : Option (SessionRow NativeSession)), (∀ row ∈ o, row.sessionId ≠ some id) →
      ∀ c ∈ o.bind rowCell, c.id ≠ id := by
    rintro o ho c hc rfl
    obtain ⟨row, hrow, hc⟩ := bind_eq_some_iff.mp hc
    obtain ⟨i, hi, rfl⟩ := map_eq_some_iff.mp hc
    exact ho row hrow hi
  refine ⟨h.cell ▸ hcell _ hf.1, ?_⟩
  rw [h.plans]
  intro q hq
  obtain ⟨p, hp, rfl⟩ := List.mem_map.mp hq
  exact ⟨(hf.2 p hp).1, hcell _ (hf.2 p hp).2⟩

theorem Tracks.freshChain (h : Tracks P r a) {c : SendingChain} (hf : r.freshChain P c = true) :
    a.FreshChain (sendPosition P base) c := by
  simp only [SealRun.freshChain, Bool.and_eq_true, List.all_eq_true, all_eq_true,
    decide_eq_true_eq] at hf
  obtain ⟨⟨hreleased, hstored⟩, hplans⟩ := hf
  refine ⟨fun n hn => ?_, ?_, ?_⟩
  · have hmem : some (c, n) ∈ r.released.map sealKey := h.emitted ▸ List.mem_map_of_mem hn
    obtain ⟨e, he, hkey⟩ := List.mem_map.mp hmem
    exact hreleased e he (by simp [hkey])
  · rw [h.cell]
    intro x hx
    obtain ⟨row, hrow, hx⟩ := bind_eq_some_iff.mp hx
    obtain ⟨i, hi, rfl⟩ := map_eq_some_iff.mp hx
    exact hstored row hrow
  · rw [h.plans]
    intro q hq
    obtain ⟨p, hp, rfl⟩ := List.mem_map.mp hq
    obtain ⟨hbegins, hread⟩ := hplans p hp
    refine ⟨by rw [SealPlan.cellPlan, SealPlan.effect_begins]; exact hbegins, fun x hx => ?_⟩
    obtain ⟨row, hrow, hx⟩ := bind_eq_some_iff.mp hx
    obtain ⟨i, hi, rfl⟩ := map_eq_some_iff.mp hx
    rw [SealPlan.readPosition, hrow] at hread
    exact hread

theorem SealPlan.Sound.releases (hp : p.Sound P)
    {db db' : SessionStore NativeSession (OwnDevice base)} (h : Applied L db db' p.commit) :
    p.releases db db' = p.ciphertext.toList := by
  unfold SealPlan.releases
  split
  · rfl
  all_goals
    next hc =>
      rcases hp.queued with ⟨v, hv⟩ | hq
      · cases hv.symm.trans hc
      · rw [h.outbox, List.drop_left]
        exact hq

theorem SealPlan.releases_queued (h : AlreadyQueued db p.commit) : p.releases db db = [] := by
  obtain ⟨c, hc, -⟩ := h
  simp [SealPlan.releases, hc]

theorem Applied.primary_row {σ δ : Type} {db db' : SessionStore σ δ} {c : StoreCommit σ δ}
    (h : Applied L db db' c) (hd : c.transition.disposition = .primaryBidirectional) :
    db'.primary = some c.transition.row := by
  obtain ⟨db₁, db₂, db₃, -, -, h3, hp, -⟩ := h.sessions
  rw [hp]
  cases he : c.transition.expectedStateVersion with
  | none => exact (applySessionTransition_install h3 hd he).1
  | some v => exact (applySessionTransition_update h3 hd he).2.2.1

theorem SealPlan.readPrimary_committed (h : db.primary = some p.commit.transition.row) :
    (readPrimary db).bind rowCell = some (p.cellPlan P).next := by
  have hread : readPrimary db = some p.commit.transition.row :=
    readPrimary_eq_some.mpr ⟨h, by simp [SessionTransition.row]⟩
  rw [hread]
  rfl

variable {rest : List (SealPlan base)}

/-- A commit that goes through replaces the cell it read, installs a new one, or hands out nothing
and leaves or clears the cell. -/
theorem Tracks.commit (ha : (VersionedCell.system (sendPosition P base)).Reachable a)
    (h : Tracks P r a) (hp : p.Sound P)
    (hperm : r.plans.Perm (p :: rest)) (hfinds : r.findsSession p = true)
    (happ : Applied L r.store db p.commit) :
    ∃ a', (VersionedCell.system (sendPosition P base)).Reachable a' ∧
      Tracks P ⟨db, rest, p.releases r.store db ++ r.released⟩ a' := by
  have hperm' : a.plans.Perm (p.cellPlan P :: rest.map (·.cellPlan P)) :=
    h.plans ▸ hperm.map (·.cellPlan P)
  have hemitted : ((p.effect P).emits.toList ++ a.emitted).map some =
      (p.releases r.store db ++ r.released).map sealKey := by
    rw [List.map_append, List.map_append, hp.emits, h.emitted, hp.releases happ]
  rcases hp.plain with ⟨hprimary, hd, hr⟩ | ⟨hnone, hexp⟩
  · have hcell := p.readPrimary_committed (P := P) (happ.primary_row hprimary)
    cases he : p.commit.transition.expectedStateVersion with
    | none => exact ⟨_, .step ha (.install hperm' (hp.install he)), hcell.symm, rfl, hemitted⟩
    | some v =>
      obtain ⟨⟨row, hrow, hver, -⟩, -⟩ := happ.update hd hr hprimary he
      obtain ⟨row₀, hread, hsome, hver₀, hnext⟩ := hp.update v he
      obtain ⟨id, hid⟩ := Option.isSome_iff_exists.mp hsome
      have hsame : row.sessionId = some id := by
        simpa [SealRun.findsSession, he, hrow, hread, hid] using hfinds
      have hstored := readPrimary_of_named hrow hsame
      have hc : a.cell = some ⟨id, row.stateVersion, row.opaqueState⟩ := by
        rw [h.cell, hstored, bind_some, rowCell, hsame, Option.map_some]
      have hc₀ : (p.cellPlan P).read = some ⟨id, row₀.stateVersion, row₀.opaqueState⟩ := by
        simp [SealPlan.cellPlan, hread, rowCell, hid]
      have hlt : row.stateVersion < p.commit.transition.nextStateVersion := by omega
      exact ⟨_, .step ha (.replace hperm' hc hc₀ rfl (hver.trans hver₀.symm) hlt), hcell.symm, rfl,
        hemitted⟩
  · -- an accepted session: primary, or alternate with the primary row kept or gone
    have hreleased : p.releases r.store db = [] := by rw [hp.releases happ, hnone]; rfl
    rcases happ.primary_cases with ⟨hrow, -⟩ | hrow | hrow
    · exact ⟨_, .step ha (.install hperm' (hp.install hexp)),
        (p.readPrimary_committed (P := P) hrow).symm, rfl, hemitted⟩
    · refine ⟨_, .step ha (.drop hperm'), ?_, rfl, ?_⟩
      · rw [h.cell]
        simp only [readPrimary, hrow]
      · rw [hreleased]
        exact h.emitted
    · refine ⟨_, .step (.step ha (.drop hperm')) .clear, ?_, rfl, ?_⟩
      · simp [readPrimary, hrow]
      · rw [hreleased]
        exact h.emitted

theorem SealRun.Inv.init (hp : r.store.primary = none) (hplans : r.plans = [])
    (hreleased : r.released = []) : r.Inv P me peer where
  rows row hrow := by cases hp.symm.trans hrow
  plans := by simp [hplans]
  tracked := by
    refine ⟨⟨none, [], []⟩, .init ⟨rfl, rfl, rfl⟩, ?_, by rw [hplans]; rfl, by rw [hreleased]; rfl⟩
    simp [readPrimary, hp]

variable (hi : r.Inv P me peer)
include hi

theorem SealRun.Inv.prepare (hp : op.sealPlan P base me peer L user r.store = some p)
    (hfresh : r.drawsFresh P p = true) : SealRun.Inv P me peer { r with plans := p :: r.plans } := by
  obtain ⟨hsound, hread⟩ := sealPlan_sound hp hi.rows hfresh
  obtain ⟨a, ha, htr⟩ := hi.tracked
  have hcell : (p.cellPlan P).read = a.cell := by
    rw [htr.cell, ← hread]
    rfl
  simp only [SealRun.drawsFresh, Bool.and_eq_true, all_eq_true, Bool.or_eq_true,
    Bool.not_eq_true'] at hfresh
  have hid : (p.cellPlan P).IsNew → a.FreshId (p.cellPlan P).next.id := by
    intro hnew
    refine htr.freshId (hfresh.1.resolve_left fun hold => ?_)
    obtain ⟨row, hrow, hrid⟩ := SealPlan.read_of_continues hold
    exact hnew ⟨p.sessionId, row.stateVersion, row.opaqueState⟩
      (by simp [SealPlan.cellPlan, hrow, rowCell, hrid]) rfl
  have hchain : ∀ c, (p.cellPlan P).effect.begins = some c →
      a.FreshChain (sendPosition P base) c := fun c hc =>
    htr.freshChain (hfresh.2 c ((p.effect_begins).symm.trans hc))
  refine ⟨hi.rows, List.forall_mem_cons.mpr ⟨hsound, hi.plans⟩, _,
    .step ha (.plan hcell hsound.made hid hchain), htr.cell, ?_, htr.emitted⟩
  rw [List.map_cons, ← htr.plans]

theorem SealRun.Inv.drop (hperm : r.plans.Perm (p :: rest)) :
    SealRun.Inv P me peer { r with plans := rest } := by
  obtain ⟨a, ha, htr⟩ := hi.tracked
  have hperm' : a.plans.Perm (p.cellPlan P :: rest.map (·.cellPlan P)) :=
    htr.plans ▸ hperm.map (·.cellPlan P)
  exact ⟨hi.rows, fun q hq => hi.plans q (hperm.mem_iff.mpr (List.mem_cons_of_mem _ hq)), _,
    .step ha (.drop hperm'), htr.cell, rfl, htr.emitted⟩

theorem SealRun.Inv.commit (hperm : r.plans.Perm (p :: rest)) (hfinds : r.findsSession p = true)
    (hdb : commitStore L r.store p.commit = .ok db) :
    SealRun.Inv P me peer ⟨db, rest, p.releases r.store db ++ r.released⟩ := by
  have hdrop := hi.drop hperm
  rcases commitStore_inv hdb with ⟨hq, rfl⟩ | happ
  · rw [SealPlan.releases_queued hq]
    exact hdrop
  · have hsound := hi.plans p (hperm.mem_iff.mpr (List.mem_cons_self ..))
    obtain ⟨a, ha, htr⟩ := hi.tracked
    refine ⟨fun row hrow => ?_, hdrop.plans, htr.commit ha hsound hperm hfinds happ⟩
    rcases happ.primary_cases with ⟨hrow', -⟩ | hrow' | hrow'
    · cases hrow'.symm.trans hrow
      intro id hid
      exact hsound.identified.trans (Option.some.inj hid)
    · exact hi.rows row (hrow'.symm.trans hrow)
    · cases hrow'.symm.trans hrow

theorem SealRun.Inv.stop : SealRun.Inv P me peer { r with plans := [] } := by
  obtain ⟨a, ha, htr⟩ := hi.tracked
  exact ⟨hi.rows, List.forall_mem_nil _, _, .step ha .stop, htr.cell, rfl, htr.emitted⟩

theorem SealRun.Inv.invalidate :
    SealRun.Inv P me peer { r with store := { r.store with primary := none, alternate := none } } := by
  obtain ⟨a, ha, htr⟩ := hi.tracked
  exact ⟨fun row hrow => (nomatch hrow), hi.plans, _, .step ha .clear, rfl, htr.plans, htr.emitted⟩

theorem SealRun.Inv.other (hp : db.primary = r.store.primary) :
    SealRun.Inv P me peer { r with store := db } := by
  obtain ⟨a, ha, htr⟩ := hi.tracked
  refine ⟨fun row hrow => hi.rows row (hp.symm.trans hrow), hi.plans, a, ha, ?_, htr.plans,
    htr.emitted⟩
  rw [htr.cell, readPrimary, readPrimary, hp]

omit hi

theorem sealRun_inductive :
    (sealSystem P base me peer L user SealRun.findsSession).Inductive (SealRun.Inv P me peer) where
  init r h := .init h.1 h.2.2.1 h.2.2.2
  step := by
    rintro r r' hi ⟨e, he⟩
    cases e with
    | prepare op =>
      simp only [SealRun.next, some_steps] at he
      obtain ⟨p, hp, hfresh, rfl⟩ := he
      exact hi.prepare hp hfresh
    | commit i =>
      simp only [SealRun.next, some_steps] at he
      obtain ⟨p, hp, hfinds, he⟩ := he
      obtain ⟨hlt, rfl⟩ := List.getElem?_eq_some_iff.mp hp
      have hperm := (List.getElem_cons_eraseIdx_perm hlt).symm
      split at he
      next => rw [← Option.some.inj he]; exact hi.drop hperm
      next db hdb => rw [← Option.some.inj he]; exact hi.commit hperm hfinds hdb
    | stop => rw [← Option.some.inj he]; exact hi.stop
    | invalidate => rw [← Option.some.inj he]; exact hi.invalidate
    | other db =>
      simp only [SealRun.next, some_steps] at he
      obtain ⟨⟨hp, -⟩, rfl⟩ := he
      exact hi.other hp

end Simulation

/-- No key protects two released ciphertexts, whatever the interleaving of sends, repair requests
and volatile seals with each other and with receipts, stops and invalidations, in a run in which
every update finds the session it read. -/
theorem released_once (P : CryptoProvider) (base : DeviceState) (me peer : Block 16)
    (L : StoreLimits) (user : String) (r : SealRun base)
    (h : (sealSystem P base me peer L user SealRun.findsSession).Reachable r)
    (c₁ c₂ : Bytes) (h₁ : c₁ ∈ r.released) (h₂ : c₂ ∈ r.released)
    (hkey : sealKey c₁ = sealKey c₂) : c₁ = c₂ := by
  obtain ⟨-, -, a, ha, htr⟩ := sealRun_inductive.reachable h
  have hnodup : (r.released.map sealKey).Nodup :=
    htr.emitted ▸ (VersionedCell.emitted_nodup ha).map (Option.some_injective _)
  exact List.inj_on_of_nodup_map hnodup h₁ h₂ hkey

def sumRun (allowed : SealRun (sumDevice 1) → SealPlan (sumDevice 1) → Bool)
    (es : List (SealEvent (sumDevice 1))) : Option (SealRun (sumDevice 1)) :=
  SealRun.run sumProvider (sumDevice 1) (Block.fill 16 1) (Block.fill 16 2) sumLimits "user" allowed
    ⟨sumStore, [], []⟩ es

def sumSend (seed : UInt8) : SealEvent (sumDevice 1) :=
  .prepare (.fanOutSend (sumInput seed) (toString seed) (toString seed) [seed])

theorem sumSends_released : (sumRun SealRun.findsSession
    [sumSend 5, .commit 0, sumSend 6, .commit 0]).map (·.released.length) = some 2 := by
  decide +kernel

/-- Two sends one after the other, each committed on the session it read. -/
theorem released_once_sumRun : ∃ r,
    sumRun SealRun.findsSession [sumSend 5, .commit 0, sumSend 6, .commit 0] = some r ∧
      r.released.length = 2 ∧ ∀ c₁ ∈ r.released, ∀ c₂ ∈ r.released,
        sealKey c₁ = sealKey c₂ → c₁ = c₂ := by
  obtain ⟨r, hr, hlen⟩ := map_eq_some_iff.mp sumSends_released
  refine ⟨r, hr, hlen, fun c₁ h₁ c₂ h₂ => ?_⟩
  exact released_once sumProvider (sumDevice 1) (Block.fill 16 1) (Block.fill 16 2) sumLimits "user"
    r (SealRun.run_reachable (.init ⟨rfl, rfl, rfl, rfl⟩) hr) c₁ c₂ h₁ h₂

/-- Sends 5 and 6 both start a session. 5 goes through, 7 makes it version 2, 8 and 9 both seal
under its third key and 8 goes through. 6 then puts its own session in the place, 10 makes that one
version 2, and 9 goes through on it. -/
def crossedSends : List (SealEvent (sumDevice 1)) :=
  [sumSend 5, sumSend 6, .commit 1, sumSend 7, .commit 0, sumSend 8, sumSend 9, .commit 1,
    .commit 1, sumSend 10, .commit 0, .commit 0]

theorem crossedSends_shareKey : (sumRun (fun _ _ => true) crossedSends).any (fun r =>
    match r.released with
    | c₁ :: _ :: _ :: c₂ :: _ => sealKey c₁ = sealKey c₂ ∧ (sealKey c₁).isSome ∧ c₁ ≠ c₂
    | _ => false) = true := by
  decide +kernel

/-- A key protects two ciphertexts of the outbox. -/
theorem crossed_seals_share_key : ∃ r,
    (sealSystem sumProvider (sumDevice 1) (Block.fill 16 1) (Block.fill 16 2) sumLimits "user"
      fun _ _ => true).Reachable r ∧ ∃ c₁ ∈ r.released, ∃ c₂ ∈ r.released,
        sealKey c₁ = sealKey c₂ ∧ (sealKey c₁).isSome ∧ c₁ ≠ c₂ := by
  obtain ⟨r, hr, hany⟩ := (Option.any_eq_true _ _).mp crossedSends_shareKey
  refine ⟨r, SealRun.run_reachable (.init ⟨rfl, rfl, rfl, rfl⟩) hr, ?_⟩
  split at hany
  next c₁ x y c₂ rest heq =>
    exact ⟨c₁, by simp [heq], c₂, by simp [heq], of_decide_eq_true hany⟩
  next => cases hany

end CommPlatform.L4
