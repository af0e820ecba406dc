import CommPlatform.Core.Optimistic
import CommPlatform.L4Store.NativeSessions

/-!
# Session commits under concurrency

Two operations on the sessions with one remote device, each an optimistic
transaction: it reads the store, prepares a plan, and commits it later.
-/
namespace CommPlatform.L4

open CommPlatform.Core L1 L2
open L3 hiding AcceptedInitial

variable {σ δ ι : Type}

def sessionTxn (C : SessionCrypto σ δ ι) (L : StoreLimits) (user : String) (op : Operation ι) :
    Txn (SessionStore σ δ) (StoreCommit σ δ) where
  prepare := fun db => op.prepare C L user db
  commit := fun c db => (commitStore L db c).toOption

def sessionView (db : SessionStore σ δ) :
    Option (SessionRow σ) × Option (SessionRow σ) × List OutboxRow :=
  (db.primary, db.alternate, db.outbox)

section Pairs

variable {C : SessionCrypto σ δ ι} {L : StoreLimits} {user : String} {clean : σ → Prop}
  {db db₁ db₂ : SessionStore σ δ} {op₁ op₂ : Operation ι}
  {c₁ c₂ : StoreCommit σ δ}

theorem applied_of_prepare (h : op₁.prepare C L user db = some c₁)
    (hc : commitStore L db c₁ = .ok db₁) : Applied L db db₁ c₁ := by
  rcases commitStore_inv hc with ⟨⟨s, rfl, hq⟩, -⟩ | h'
  · rw [prepare_unqueued h] at hq
    simp [StoreCommit.queued] at hq
  · exact h'

theorem Applied.readPrimary_row (h : db₁.primary = some c₁.transition.row) :
    readPrimary db₁ = some c₁.transition.row :=
  readPrimary_eq_some.mpr ⟨h, rfl⟩

theorem Accepts.refuses (h : Accepts C clean db c₁) (h₁ : Applied L db db₁ c₁)
    (h₂ : Applied L db₁ db₂ c₂) : c₂.revision ≠ some db.stateRevision := by
  intro hrev
  obtain ⟨d, hd, hnext⟩ := h.device
  have := h₂.revision _ hrev
  have := h₁.device d hd
  omega

theorem prepare_again (hC : C.Lawful clean) (hs : StoreSound C clean db) {p : SessionRow σ}
    (hp : readPrimary db = some p) (hprep₁ : op₁.prepare C L user db = some c₁)
    (hprep₂ : op₂.prepare C L user db = some c₂) (hcom₁ : commitStore L db c₁ = .ok db₁)
    (hcom₂ : commitStore L db₁ c₂ = .ok db₂) (h₂ : Applied L db₁ db₂ c₂) :
    op₂.prepare C L user db₁ = some c₂ := by
  have h₁ := applied_of_prepare hprep₁ hcom₁
  have hprim := (readPrimary_eq_some.mp hp).1
  have hclean := (hs.rows p hprim).clean
  obtain ⟨hdem₁, hrpl₁⟩ := commitStore_valid hcom₁
  obtain ⟨hdem₂, hrpl₂⟩ := commitStore_valid hcom₂
  cases hop₁ : op₁.isInitial with
  | false =>
    have hu := prepare_updates hC hs.rows hp hop₁ hprep₁
    obtain ⟨-, -, hnew, halt⟩ := h₁.update hu.demoted hu.replaced hu.primary hu.expected
    obtain ⟨hrev, hdev⟩ := h₁.deviceKept hu.device
    have hread := Applied.readPrimary_row hnew
    cases hop₂ : op₂.isInitial with
    | false =>
      -- the versions differ
      have hu₂ := prepare_updates hC hs.rows hp hop₂ hprep₂
      obtain ⟨⟨row, hrow, hv, -⟩, -⟩ := h₂.update hu₂.demoted hu₂.replaced hu₂.primary hu₂.expected
      cases hnew.symm.trans hrow
      have := hu.next
      simp only [SessionTransition.row] at hv
      omega
    | true =>
      cases prepare_acceptance hC hop₂ hprep₂ hdem₂ hrpl₂ with
      | loses p' hp' hd hr hdisp =>
        exact prepare_loses_again hC hop₂ hprep₂ hp hd hdev hrev hread hu.user hclean halt h₁.total
          hr hdisp hu.made
      | wins p' d hp' hd hr hdisp hexp hnext =>
        obtain ⟨⟨row, hrow, hv, -⟩, -⟩ :=
          h₂.wins hdisp (prepare_accepts hC hop₂ hprep₂).expected hd hr
        cases hnew.symm.trans hrow
        cases hp.symm.trans hp'
        rw [hexp, Option.some.injEq] at hv
        have := hu.next
        simp only [SessionTransition.row] at hv
        omega
      | replaces p' id hp' hpend hd hr hdisp =>
        cases hp.symm.trans hp'
        obtain ⟨⟨row, hrow, hid, hrep, -⟩, -⟩ :=
          h₂.replaces hdisp (prepare_accepts hC hop₂ hprep₂).expected hd hr
        cases hnew.symm.trans hrow
        exact prepare_replaces_again hC hop₂ hprep₂ hp hd hdev hrev hread hu.user hclean halt
          h₁.total hr hid hrep (hu.opened hpend hrep)
      | alone hp' => simp [hp] at hp'
  | true =>
    have ha := prepare_accepts hC hop₁ hprep₁
    cases hop₂ : op₂.isInitial with
    | true => exact absurd (prepare_accepts hC hop₂ hprep₂).revision (ha.refuses h₁ h₂)
    | false =>
      have hu₂ := prepare_updates hC hs.rows hp hop₂ hprep₂
      rcases hu₂.revision with hrev | ⟨hrev, hsid⟩
      · exact absurd hrev (ha.refuses h₁ h₂)
      obtain ⟨⟨row, hrow, hv, -⟩, hcol, -⟩ :=
        h₂.update hu₂.demoted hu₂.replaced hu₂.primary hu₂.expected
      cases prepare_acceptance hC hop₁ hprep₁ hdem₁ hrpl₁ with
      | loses p' hp' hd hr hdisp =>
        -- the new alternate is not the session of the envelope
        obtain ⟨halt, hne, hsame, hnew⟩ := h₁.alternate hd hr hdisp
        obtain ⟨id, ctx, hctx, hagain⟩ := prepare_regular_congr db₁ hop₂ hprep₂ hrev
        obtain ⟨hpc, hidc, -, htot, hctx'⟩ := readInboundContext_primary.mp hctx
        have htotal : skippedKeyTotal db₁ = skippedKeyTotal db := by
          simp [skippedKeyTotal, h₁.others, hsame, hnew, halt, SessionTransition.row, ha.skipped]
        refine hagain (readInboundContext_primary.mpr ⟨hsame.trans hpc, hidc, ?_, ?_, ?_⟩).1
        · rintro a hal hid
          cases hnew.symm.trans hal
          exact hne _ hpc (hidc.trans hid.symm)
        · rwa [htotal]
        · rwa [htotal]
      | wins p' d hp' hd hr hdisp hexp hnext =>
        obtain ⟨⟨row', hrow', -, hid⟩, -, hal⟩ := h₁.wins hdisp ha.expected hd hr
        cases hprim.symm.trans hrow'
        exact absurd (hid.symm.trans hsid) (hcol _ hal)
      | replaces p' id hp' hpend hd hr hdisp =>
        -- the new session is at its first version, the session read was not
        obtain ⟨-, hnew, -⟩ := h₁.replaces hdisp ha.expected hd hr
        cases hnew.symm.trans hrow
        cases hp.symm.trans hp'
        have := hs.pending p hp hpend
        have := ha.version
        simp only [SessionTransition.row] at hv
        omega
      | alone hp' => simp [hp] at hp'

theorem run_cases (C : SessionCrypto σ δ ι) (L : StoreLimits) (user : String) (op : Operation ι)
    (db : SessionStore σ δ) : (sessionTxn C L user op).run db = db ∨
      ∃ c, op.prepare C L user db = some c ∧
        commitStore L db c = .ok ((sessionTxn C L user op).run db) := by
  cases hprep : op.prepare C L user db with
  | none => exact .inl (Txn.run_of_none hprep)
  | some c =>
    have hrun := Txn.run_of_some (t := sessionTxn C L user op) hprep
    cases hc : commitStore L db c with
    | error e => exact .inl (by rw [hrun]; simp [sessionTxn, hc, Except.toOption])
    | ok db' =>
      have : (sessionTxn C L user op).run db = db' := by
        rw [hrun]
        simp [sessionTxn, hc, Except.toOption]
      exact .inr ⟨c, rfl, by rw [this, hc]⟩

theorem run_sound (hC : C.Lawful clean) (hs : StoreSound C clean db) (op : Operation ι) :
    StoreSound C clean ((sessionTxn C L user op).run db) := by
  rcases run_cases C L user op db with h | ⟨c, hprep, hcom⟩
  · rwa [h]
  · exact (applied_of_prepare hprep hcom).sound hs (prepare_planSound hC hs hprep)

theorem run_alternate (hC : C.Lawful clean) (hs : StoreSound C clean db)
    (halt : db.alternate = none) (hop : op₁.isInitial = false) :
    ((sessionTxn C L user op₁).run db).alternate = none := by
  rcases run_cases C L user op₁ db with h | ⟨c, hprep, hcom⟩
  · rw [h, halt]
  · have happ := applied_of_prepare hprep hcom
    cases hp : readPrimary db with
    | some p =>
      have hu := prepare_updates hC hs.rows hp hop hprep
      exact (happ.update hu.demoted hu.replaced hu.primary hu.expected).2.2.2
    | none =>
      have hst := (prepare_starts hC hs.rows hp hop hprep).2
      rcases (happ.installs hst.demoted hst.replaced hst.primary hst.expected).2 with
        ⟨-, h⟩ | ⟨row, hrow, -⟩
      · exact h.trans halt
      · simp [hp] at hrow

/-- A plan made where no primary session was read installs one over whatever is there. -/
structure Installs (C : SessionCrypto σ δ ι) (db : SessionStore σ δ) (c : StoreCommit σ δ) :
    Prop where
  primary : c.transition.disposition = .primaryBidirectional
  expected : c.transition.expectedStateVersion = none
  version : c.transition.nextStateVersion = 1
  ready : c.transition.repairState = .ready
  demoted : c.demoted = none
  replaced : c.replaced = none
  revision : c.revision = some db.stateRevision

theorem prepare_installs (hC : C.Lawful clean) (hs : StoreSound C clean db)
    (hp : readPrimary db = none) (hprep : op₁.prepare C L user db = some c₁)
    (hcom : commitStore L db₁ c₁ = .ok db₂) : Installs C db c₁ := by
  cases hop : op₁.isInitial with
  | false =>
    have h := (prepare_starts hC hs.rows hp hop hprep).2
    exact ⟨h.primary, h.expected, h.version, h.ready, h.demoted, h.replaced, h.revision⟩
  | true =>
    have h := prepare_accepts hC hop hprep
    obtain ⟨hdem, hrpl⟩ := commitStore_valid hcom
    cases prepare_acceptance hC hop hprep hdem hrpl with
    | alone _ hd hr hdisp => exact ⟨hdisp, h.expected, h.version, h.ready, hd, hr, h.revision⟩
    | loses p hp' | wins p _ hp' | replaces p _ hp' => simp [hp] at hp'

theorem Installs.fresh (h : Installs C db c₁) (ha : Applied L db db₁ c₁)
    (hp : readPrimary db = none) : readPrimary db₁ = some c₁.transition.row ∧
      db₁.primary = some c₁.transition.row ∧ db₁.alternate = db.alternate := by
  obtain ⟨hprim, ⟨-, halt⟩ | ⟨row, hrow, -⟩⟩ := ha.installs h.demoted h.replaced h.primary h.expected
  · exact ⟨Applied.readPrimary_row hprim, hprim, halt⟩
  · simp [hp] at hrow

theorem Installs.displaces (h : Installs C db c₂) (ha : Applied L db₁ db₂ c₂) {row : SessionRow σ}
    (hp : readPrimary db₁ = some row) : db₂.primary = some c₂.transition.row ∧
      row.sessionId ≠ some c₂.transition.sessionId ∧ db₁.alternate = none ∧
      db₂.alternate = some row := by
  obtain ⟨hprim, ⟨hp', -⟩ | ⟨row', hrow, hne, hnone, halt⟩⟩ :=
    ha.installs h.demoted h.replaced h.primary h.expected
  · simp [hp] at hp'
  · cases hp.symm.trans hrow
    exact ⟨hprim, hne, hnone, halt⟩

/-- Two installations over no session: only a send can come first, and no serial order leaves the
same rows. -/
theorem two_installs_not_serial (hC : C.Lawful clean) (hs : StoreSound C clean db)
    (hp : readPrimary db = none) (hprep₁ : op₁.prepare C L user db = some c₁)
    (hprep₂ : op₂.prepare C L user db = some c₂) (hcom₁ : commitStore L db c₁ = .ok db₁)
    (hcom₂ : commitStore L db₁ c₂ = .ok db₂) (h₂ : Applied L db₁ db₂ c₂) :
    sessionView db₂ ≠ sessionView ((sessionTxn C L user op₂).run db₁) ∧
      sessionView db₂ ≠ sessionView ((sessionTxn C L user op₁).run
        ((sessionTxn C L user op₂).run db)) := by
  have h₁ := applied_of_prepare hprep₁ hcom₁
  have hi₁ := prepare_installs hC hs hp hprep₁ hcom₁
  have hi₂ := prepare_installs hC hs hp hprep₂ hcom₂
  have hop₁ : op₁.isInitial = false := by
    by_contra hop
    rw [Bool.not_eq_false] at hop
    exact (prepare_accepts hC hop hprep₁).refuses h₁ h₂ hi₂.revision
  obtain ⟨hread₁, hprim₁, halt₁⟩ := hi₁.fresh h₁ hp
  obtain ⟨hprim₂, hne, hnone, halt₂⟩ := hi₂.displaces h₂ hread₁
  have hsound₁ := h₁.sound hs (prepare_planSound hC hs hprep₁)
  -- a run that leaves no alternate row is told apart by it
  have hnot : ∀ db' : SessionStore σ δ, db'.alternate = none → sessionView db₂ ≠ sessionView db' := by
    intro db' h heq
    have : db₂.alternate = db'.alternate := congrArg (·.2.1) heq
    simp [h, halt₂] at this
  constructor
  · cases hop₂ : op₂.isInitial with
    | false => exact hnot _ (run_alternate hC hsound₁ hnone hop₂)
    | true =>
      rcases run_cases C L user op₂ db₁ with h | ⟨c, hprep, hcom⟩
      · exact hnot _ (by rw [h, hnone])
      intro heq
      have happ := applied_of_prepare hprep hcom
      have hprim : db₂.primary = ((sessionTxn C L user op₂).run db₁).primary := congrArg (·.1) heq
      have halt : db₂.alternate = ((sessionTxn C L user op₂).run db₁).alternate :=
        congrArg (·.2.1) heq
      obtain ⟨hdem, hrpl⟩ := commitStore_valid hcom
      have hexp := (prepare_accepts hC hop₂ hprep).expected
      cases prepare_acceptance hC hop₂ hprep hdem hrpl with
      | loses p _ hd hr hdisp =>
        rw [(happ.alternate hd hr hdisp).2.2.1, hprim₁, hprim₂, Option.some.injEq] at hprim
        exact hne (congrArg SessionRow.sessionId hprim).symm
      | wins p d hp' hd hr hdisp hexp' hnext =>
        cases hread₁.symm.trans hp'
        rw [(happ.wins hdisp hexp hd hr).2.2, halt₂, Option.some.injEq] at halt
        have := congrArg SessionRow.stateVersion halt
        simp only [SessionTransition.row] at this hnext
        omega
      | replaces p id hp' hpend =>
        cases hread₁.symm.trans hp'
        simp [SessionTransition.row, hi₁.ready] at hpend
      | alone hp' => simp [hread₁] at hp'
  · rcases run_cases C L user op₂ db with h | ⟨c, hprep, hcom⟩
    · -- the second alone changes nothing: the first runs as it did
      rw [h, Txn.run_of_some (t := sessionTxn C L user op₁) hprep₁]
      simp only [sessionTxn, hcom₁, Except.toOption, Option.getD_some]
      exact hnot _ hnone
    · cases hprep₂.symm.trans hprep
      have happ := applied_of_prepare hprep₂ hcom
      obtain ⟨-, -, halt⟩ := hi₂.fresh happ hp
      exact hnot _ (run_alternate hC (run_sound hC hs op₂) (halt.trans (halt₁.symm.trans hnone))
        hop₁)

end Pairs

/-! ## Every interleaving -/

section Interleavings

variable {C : SessionCrypto σ δ ι} {L : StoreLimits} {user : String} {clean : σ → Prop}
  {db : SessionStore σ δ} {ops : Bool → Operation ι}

def sessionTxns (C : SessionCrypto σ δ ι) (L : StoreLimits) (user : String)
    (ops : Bool → Operation ι) : Bool → Txn (SessionStore σ δ) (StoreCommit σ δ) :=
  fun i => sessionTxn C L user (ops i)

/-- Envelopes sealed by the two operations under one operation id differ. -/
def FreshSends (C : SessionCrypto σ δ ι) (L : StoreLimits) (user : String)
    (ops : Bool → Operation ι) (db : SessionStore σ δ) : Prop :=
  ∀ i s s', (ops i).prepare C L user db = some (.send s) →
    (ops !i).prepare C L user db = some (.send s') → s.operationId = s'.operationId →
    s.exactCiphertext ≠ s'.exactCiphertext

/-- Both operations read no primary session, and both commits went through. -/
def BothInstall (C : SessionCrypto σ δ ι) (L : StoreLimits) (user : String)
    (ops : Bool → Operation ι) (db : SessionStore σ δ)
    (p : Txn.Play (SessionStore σ δ) (StoreCommit σ δ)) : Prop :=
  readPrimary db = none ∧ p.refused = false ∧
    ∃ i c₁ c₂ db₁, Txn.BothCommit (sessionTxns C L user ops) db p.store i c₁ c₂ db₁

theorem applied_second (hfresh : FreshSends C L user ops db) {i : Bool} {c₁ c₂ : StoreCommit σ δ}
    {db₁ db₂ : SessionStore σ δ}
    (h : Txn.BothCommit (sessionTxns C L user ops) db db₂ i c₁ c₂ db₁) :
    Applied L db₁ db₂ c₂ := by
  have hprep₁ := h.first
  have hprep₂ := h.second
  have h₁ := applied_of_prepare hprep₁ (ok_of_toOption h.committed)
  rcases commitStore_inv (ok_of_toOption h.committedSecond) with ⟨⟨s', rfl, hq⟩, -⟩ | h'
  · rw [h₁.outbox, List.filter_append, prepare_unqueued hprep₂, List.nil_append] at hq
    cases c₁ with
    | send s =>
      simp only [StoreCommit.queued, List.filter_cons, List.filter_nil] at hq
      split at hq
      next hid =>
        simp only [List.cons.injEq, OutboxRow.mk.injEq, and_true] at hq
        exact absurd hq.2.2 (hfresh i s s' hprep₁ hprep₂ hq.1)
      next => cases hq
    | receive | volatileSeal | volatileOpen => simp [StoreCommit.queued] at hq
  · exact h'

theorem not_serial_of_alternate (hC : C.Lawful clean) (hs : StoreSound C clean db)
    (hnone : db.alternate = none) (hops : ∀ i, (ops i).isInitial = false)
    {db' : SessionStore σ δ} (halt : db'.alternate.isSome) :
    ¬ Txn.Serial sessionView (sessionTxns C L user ops) db db' := by
  rintro ⟨i, hi⟩
  have hrun : ((sessionTxns C L user ops !i).run
      ((sessionTxns C L user ops i).run db)).alternate = none :=
    run_alternate hC (run_sound hC hs (ops i)) (run_alternate hC hs hnone (hops i)) (hops !i)
  have heq : db'.alternate = none := (congrArg (·.2.1) hi).trans hrun
  simp [heq] at halt

/-- From every reachable store, an interleaving of the reads and commits of two operations ends
with a refused commit or leaves the rows of a serial order, unless both install a primary session
over none; and then it leaves the rows of no serial order. -/
theorem serialisable_of_lawful (hC : C.Lawful clean) {r : DeviceRun σ δ}
    (hr : (deviceSystem C L user).Reachable r) (hfresh : FreshSends C L user ops r.store)
    {schedule : List Txn.Event} (hsched : schedule ∈ Txn.schedules) :
    let played := Txn.play (sessionTxns C L user ops) schedule r.store
    (played.refused = true ∨
      Txn.Serial sessionView (sessionTxns C L user ops) r.store played.store) ↔
      ¬ BothInstall C L user ops r.store played := by
  intro played
  have hs := ((sound_inductive hC).reachable hr).1
  constructor
  · rintro h ⟨hp, hok, i, c₁, c₂, db₁, hboth⟩
    have happ := applied_second hfresh hboth
    obtain ⟨hn₁, hn₂⟩ := two_installs_not_serial hC hs hp hboth.first hboth.second
      (ok_of_toOption hboth.committed) (ok_of_toOption hboth.committedSecond) happ
    rcases h with h | ⟨j, hj⟩
    · simp [hok] at h
    · rcases Bool.eq_or_eq_not j i with rfl | rfl
      · have hrun : (sessionTxns C L user ops j).run r.store = db₁ := by
          rw [Txn.run_of_some hboth.first, hboth.committed, Option.getD_some]
        rw [hrun] at hj
        exact hn₁ hj
      · rw [Bool.not_not] at hj
        exact hn₂ hj
  · intro hnot
    rcases Txn.play_cases sessionView (sessionTxns C L user ops) hsched r.store with
      h | h | ⟨hok, i, c₁, c₂, db₁, hboth⟩
    · exact .inl h
    · exact .inr h
    · cases hp : readPrimary r.store with
      | none => exact absurd ⟨hp, hok, i, c₁, c₂, db₁, hboth⟩ hnot
      | some p =>
        exact .inr (Txn.serial_of_same sessionView hboth (prepare_again hC hs hp hboth.first
          hboth.second (ok_of_toOption hboth.committed) (ok_of_toOption hboth.committedSecond)
          (applied_second hfresh hboth)))

end Interleavings

/-! ## The native sessions -/

/-- Serialisability of the commits on the native sessions: it fails exactly where both operations
install a primary session over none. -/
theorem session_commits_serialisable (P : CryptoProvider) (base : DeviceState) (me peer : Block 16)
    (hme : isZero me.bytes = false) (L : StoreLimits) (user : String)
    (r : DeviceRun NativeSession (OwnDevice base))
    (hr : (deviceSystem (nativeCrypto P base me peer) L user).Reachable r)
    (ops : Bool → Operation NativeInput)
    (hfresh : FreshSends (nativeCrypto P base me peer) L user ops r.store)
    (schedule : List Txn.Event) (hsched : schedule ∈ Txn.schedules) :
    let txns := sessionTxns (nativeCrypto P base me peer) L user ops
    let played := Txn.play txns schedule r.store
    (played.refused = true ∨ Txn.Serial sessionView txns r.store played.store) ↔
      ¬ BothInstall (nativeCrypto P base me peer) L user ops r.store played :=
  serialisable_of_lawful (nativeCrypto_lawful P base peer hme) hr hfresh hsched

def sumNative : SessionCrypto NativeSession (OwnDevice (sumDevice 1)) NativeInput :=
  nativeCrypto sumProvider (sumDevice 1) (Block.fill 16 1) (Block.fill 16 2)

def sumLimits : StoreLimits := ⟨2000, 20000, 4096, 4096, 4096⟩

def sumStore : SessionStore NativeSession (OwnDevice (sumDevice 1)) where
  primary := none
  alternate := none
  deviceState := ⟨sumDevice 1, rfl⟩
  stateRevision := 1
  maintenancePending := false
  outbox := []
  localApplications := []
  inspecting := []
  replayMarkers := []
  otherSessionIds := []
  otherSkippedKeys := 0
  otherOutboxRows := 0

def sumInput (seed : UInt8) : NativeInput :=
  ⟨sumBundle 2 two_nonzero, none, none, [seed], [], sumProjection 2 two_nonzero,
    List.replicate 4096 seed⟩

def sumSends : Bool → Operation NativeInput
  | false => .fanOutSend (sumInput 5) "send-1" "event-1" [5]
  | true => .fanOutSend (sumInput 6) "send-2" "event-2" [6]

theorem sumStore_reachable : (deviceSystem sumNative sumLimits "user").Reachable ⟨sumStore, []⟩ :=
  .init ⟨rfl, rfl, rfl⟩

theorem prepare_operationId {C : SessionCrypto σ δ ι} {L : StoreLimits} {user o ev : String}
    {x : ι} {payload : Bytes} {db : SessionStore σ δ} {s : SendCommit σ}
    (h : (Operation.fanOutSend x o ev payload).prepare C L user db = some (.send s)) :
    s.operationId = o := by
  simp only [Operation.prepare, prepareSend, Option.map_eq_some_iff, StoreCommit.send.injEq,
    exists_eq_right, some_steps] at h
  obtain ⟨-, -, -, -, -, -, rfl⟩ := h
  rfl

theorem sumSends_fresh (db : SessionStore NativeSession (OwnDevice (sumDevice 1))) :
    FreshSends sumNative sumLimits "user" sumSends db := by
  intro i s s' h h' hid
  cases i with
  | false =>
    have := (prepare_operationId h).symm.trans (hid.trans (prepare_operationId h'))
    exact absurd this (by decide)
  | true =>
    have := (prepare_operationId h).symm.trans (hid.trans (prepare_operationId h'))
    exact absurd this (by decide)

/-- The store after a first send, which starts the session. -/
def sumStarted : Option (SessionStore NativeSession (OwnDevice (sumDevice 1))) := do
  let c ← (Operation.fanOutSend (sumInput 4) "send-0" "event-0" [4]).prepare sumNative sumLimits
    "user" sumStore
  (commitStore sumLimits sumStore c).toOption

theorem sumStarted_played : (sumStarted.map fun db => ((readPrimary db).isSome,
    (Txn.play (sessionTxns sumNative sumLimits "user" sumSends)
      [.read false, .read true, .commit false, .commit true] db).refused)) = some (true, true) := by
  decide +kernel

/-- Two sends overlap on a stored session: the second commit is refused. -/
theorem session_commits_serialisable_sumSends : ∃ r,
    (deviceSystem sumNative sumLimits "user").Reachable r ∧ (readPrimary r.store).isSome ∧
    let txns := sessionTxns sumNative sumLimits "user" sumSends
    let played := Txn.play txns [.read false, .read true, .commit false, .commit true] r.store
    (played.refused = true ∨ Txn.Serial sessionView txns r.store played.store) ∧
      ¬ BothInstall sumNative sumLimits "user" sumSends r.store played := by
  obtain ⟨db, hdb, hplayed⟩ := Option.map_eq_some_iff.mp sumStarted_played
  obtain ⟨hsome, hrefused⟩ := Prod.mk.inj hplayed
  simp only [sumStarted, some_steps, toOption_eq_some] at hdb
  obtain ⟨c, hc, hdb⟩ := hdb
  have hr := (sumStore_reachable.step (.prepare hc)).step (.commit List.mem_cons_self hdb)
  exact ⟨_, hr, hsome, .inl hrefused, (session_commits_serialisable sumProvider (sumDevice 1)
    (Block.fill 16 1) (Block.fill 16 2) (by decide) sumLimits "user" _ hr sumSends
    (sumSends_fresh _) _ (by simp [Txn.schedules, interleavings])).mp (.inl hrefused)⟩

/-- Both sends read "no session" and both commits go through: the second session becomes the
primary, the first the alternate, and neither order of the two sends leaves that. -/
theorem crossed_starts_not_serial :
    let txns := sessionTxns sumNative sumLimits "user" sumSends
    let played := Txn.play txns [.read false, .read true, .commit false, .commit true] sumStore
    played.refused = false ∧ played.store.alternate.isSome ∧
      ¬ Txn.Serial sessionView txns sumStore played.store := by
  intro txns played
  have hrun : played.refused = false ∧ played.store.alternate.isSome := by
    decide +kernel
  have hC := nativeCrypto_lawful sumProvider (sumDevice 1) (Block.fill 16 2)
    (show isZero (Block.fill 16 1).bytes = false by decide)
  have hs := ((sound_inductive hC).reachable sumStore_reachable).1
  exact ⟨hrun.1, hrun.2, not_serial_of_alternate hC hs rfl (by decide) hrun.2⟩

end CommPlatform.L4
