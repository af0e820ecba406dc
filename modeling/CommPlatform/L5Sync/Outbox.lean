import Mathlib.Data.List.MinMax
import Mathlib.Data.List.Nodup
import Mathlib.Data.Prod.Lex
import Mathlib.Data.String.Basic
import CommPlatform.Core.Runs
import CommPlatform.L4Store.SessionStore

/-!
# The outbox

`drift_sync_store.dart` and the flush loop of `durable_sync_engine.dart`: a
prepared send leaves one row for each recipient device; a flush begins the
next batch that is due, hands it to the server and records the answer.

The store never looks into a ciphertext. Whether it is the initial envelope
of a session or a later one is kept beside it, with two bits of history:
whether the row was ever handed to the server, and whether the server
accepted it (which a lost response hides from the device).

* `begin_inv`: what beginning a batch changes.
* `initial_first`: a follow-up waits for its initial.
* `flushOutbox_steps`: the loop takes the steps of its rounds.
-/
namespace CommPlatform.L5

open CommPlatform.Core L4
open List (mem_append mem_filter mem_map)

/-- mirrors sync_model.dart:49-57 -/
inductive OutboxAttemptState
  | queued | sending | retryWait | accepted | stale | permanentlyFailed | removed
deriving DecidableEq

inductive EnvelopeKind
  | initial | regular
deriving DecidableEq

structure OutboxItem where
  operationId : String
  recipientDeviceId : String
  batchIndex : Nat
  attemptState : OutboxAttemptState
  attemptCount : Nat
  nextAttemptAt : Option Nat
  /-- what the ciphertext is -/
  kind : EnvelopeKind
  sessionId : SessionId
  /-- history: it was handed to the server -/
  attempted : Bool
  /-- history: the server accepted it -/
  delivered : Bool

abbrev Outbox := List OutboxItem

/-- What a batch hands to the server; each target stands for its row's exact ciphertext. -/
structure OutboxBatch where
  operationId : String
  batchIndex : Nat
  attempt : Nat
  targets : List String

def OutboxBatch.has (batch : OutboxBatch) (row : OutboxItem) : Bool :=
  row.operationId = batch.operationId ∧ row.recipientDeviceId ∈ batch.targets

/-- mirrors drift_sync_store.dart:1814-1830 -/
def updateOutboxBatch (batch : OutboxBatch) (f : OutboxItem → OutboxItem) (rows : Outbox) : Outbox :=
  rows.map fun row => if batch.has row then f row else row

/-! ## Beginning a batch -/

def OutboxItem.due (now : Nat) (row : OutboxItem) : Bool :=
  (row.attemptState = .queued ∨ row.attemptState = .retryWait) ∧ row.nextAttemptAt.all (· ≤ now)

/-- The order in which rows are picked. -/
def OutboxItem.sortKey (row : OutboxItem) : String ×ₗ ℕ ×ₗ String :=
  toLex (row.operationId, toLex (row.batchIndex, row.recipientDeviceId))

/-- The row a flush picks next: one a stopped process left in flight, or else the first that is
due. mirrors drift_sync_store.dart:1441-1474 -/
def nextItem (now : Nat) (rows : Outbox) : Option OutboxItem :=
  match (rows.filter (·.attemptState = .sending)).argmin OutboxItem.sortKey with
  | some first => some first
  | none => (rows.filter (·.due now)).argmin OutboxItem.sortKey

/-- The rows that go with it.
mirrors drift_sync_store.dart:1478-1505 -/
def batchItems (now : Nat) (first : OutboxItem) (rows : Outbox) : Outbox :=
  rows.filter fun row => row.operationId = first.operationId ∧ row.batchIndex = first.batchIndex ∧
    (row.attemptState = .sending ∨ row.due now)

def OutboxItem.hand (attempt : Nat) (row : OutboxItem) : OutboxItem :=
  { row with
    attemptState := .sending
    attemptCount := attempt
    nextAttemptAt := none
    attempted := true }

/-- mirrors drift_sync_store.dart:1436-1553 -/
def beginNextOutboxBatch (now : Nat) (rows : Outbox) : Option (OutboxBatch × Outbox) := do
  let first ← nextItem now rows
  let dueRows := batchItems now first rows
  guard (dueRows ≠ [])
  let attempt := (dueRows.map (·.attemptCount)).foldl max 0 + 1
  let batch : OutboxBatch :=
    ⟨first.operationId, first.batchIndex, attempt, dueRows.map (·.recipientDeviceId)⟩
  return (batch, updateOutboxBatch batch (·.hand attempt) rows)

/-! ## Recording the answer -/

structure OutboxAcceptance where
  accepted : Nat
  staleDeviceIds : List String
  fullDeviceIds : List String

/-- What becomes of a batch: a response, a failure, or a process that stops before it records
anything. `reached` are the devices whose envelope the server took although the device never learns
of it; `retryAt` is what the retry policy makes of the clock and the jitter. -/
inductive Answer
  | response (acceptance : OutboxAcceptance) (reached : List String) (retryAt retryFullAt : Nat)
  | failure (permanent : Bool) (reached : List String) (retryAt : Nat)
  | stopped (reached : List String)

/-- mirrors durable_sync_engine.dart:939-949 -/
def isValidAcceptance (batch : OutboxBatch) (a : OutboxAcceptance) : Bool :=
  a.staleDeviceIds.all (· ∈ batch.targets) ∧ a.fullDeviceIds.all (· ∈ batch.targets) ∧
    (a.accepted : Int) = batch.targets.length - a.staleDeviceIds.length - a.fullDeviceIds.length

/-- One target of an acceptance: stale rows and accepted rows are final, full ones wait.
mirrors drift_sync_store.dart:1572-1600 -/
def recordTarget (a : OutboxAcceptance) (retryFullAt : Nat) (row : OutboxItem) : OutboxItem :=
  if row.recipientDeviceId ∈ a.staleDeviceIds then
    { row with attemptState := .stale, nextAttemptAt := none }
  else if row.recipientDeviceId ∈ a.fullDeviceIds then
    { row with attemptState := .retryWait, nextAttemptAt := some retryFullAt }
  else { row with attemptState := .accepted, nextAttemptAt := none, delivered := true }

def OutboxItem.reach (reached : List String) (row : OutboxItem) : OutboxItem :=
  { row with delivered := row.delivered || decide (row.recipientDeviceId ∈ reached) }

/-- mirrors drift_sync_store.dart:1624-1651 -/
def OutboxItem.retry (retryAt : Nat) (row : OutboxItem) : OutboxItem :=
  { row with attemptState := .retryWait, nextAttemptAt := some retryAt }

def OutboxItem.retire (row : OutboxItem) : OutboxItem :=
  { row with attemptState := .permanentlyFailed, nextAttemptAt := none }

/-- What the answer makes of one row of the batch.
mirrors durable_sync_engine.dart:494-562 -/
def Answer.row (batch : OutboxBatch) (row : OutboxItem) : Answer → OutboxItem
  | .response a reached retryAt retryFullAt =>
    if isValidAcceptance batch a then recordTarget a retryFullAt row
    else (row.reach reached).retry retryAt
  | .failure true reached _ => (row.reach reached).retire
  | .failure false reached retryAt => (row.reach reached).retry retryAt
  | .stopped reached => row.reach reached

def recordAnswer (batch : OutboxBatch) (answer : Answer) (rows : Outbox) : Outbox :=
  updateOutboxBatch batch (fun row => answer.row batch row) rows

/-- A valid response or a permanent failure goes on to the next batch; the others end the run. -/
def Answer.continues (batch : OutboxBatch) : Answer → Bool
  | .response a _ _ _ => isValidAcceptance batch a
  | .failure permanent _ _ => permanent
  | .stopped _ => false

structure SendTarget where
  recipientDeviceId : String
  kind : EnvelopeKind
  sessionId : SessionId

def SendTarget.row (operationId : String) (t : SendTarget × Nat) : OutboxItem :=
  { operationId := operationId
    recipientDeviceId := t.1.recipientDeviceId
    batchIndex := t.2 / 256
    attemptState := .queued
    attemptCount := 0
    nextAttemptAt := none
    kind := t.1.kind
    sessionId := t.1.sessionId
    attempted := false
    delivered := false }

/-- The rows of a committed send; an operation that has rows gets no others.
mirrors drift_pairwise_transport_store.dart:229-336 -/
def commitSend (operationId : String) (targets : List SendTarget) (rows : Outbox) : Outbox :=
  if rows.any (·.operationId = operationId) then rows
  else rows ++ targets.zipIdx.map (SendTarget.row operationId)

/-- Rows that failed for good are queued again on request.
mirrors drift_pairwise_transport_store.dart:482-521 -/
def rearm (operationId : String) (rows : Outbox) : Outbox :=
  rows.map fun row =>
    if row.operationId = operationId ∧ row.attemptState = .permanentlyFailed then
      { row with attemptState := .queued, attemptCount := 0, nextAttemptAt := none }
    else row

/-- The rows of devices that are gone are final.
mirrors drift_pairwise_transport_store.dart:1180-1216 -/
def invalidate (devices : List String) (rows : Outbox) : Outbox :=
  rows.map fun row =>
    if row.recipientDeviceId ∈ devices ∧ (row.attemptState = .queued ∨
        row.attemptState = .sending ∨ row.attemptState = .retryWait) then
      { row with attemptState := .stale, nextAttemptAt := none }
    else row

/-! ## One row through a step -/

/-- What no step changes of a row, and the two bits that are only ever set. -/
structure OutboxItem.Keeps (r r' : OutboxItem) : Prop where
  operation : r'.operationId = r.operationId
  device : r'.recipientDeviceId = r.recipientDeviceId
  batch : r'.batchIndex = r.batchIndex
  kind : r'.kind = r.kind
  session : r'.sessionId = r.sessionId
  delivered : r.delivered = true → r'.delivered = true

/-- A step that hands nothing to the server: a row that was never handed over stays as it is or
is given up. -/
structure OutboxItem.Settles (r r' : OutboxItem) : Prop extends OutboxItem.Keeps r r' where
  attempted : r'.attempted = r.attempted
  sending : r'.attemptState = .sending → r.attemptState = .sending
  waiting : r.attempted = false → r' = r ∨ r'.attemptState = .stale

theorem OutboxItem.Settles.refl (r : OutboxItem) : r.Settles r :=
  { operation := rfl, device := rfl, batch := rfl, kind := rfl, session := rfl, delivered := id
    attempted := rfl, sending := id, waiting := fun _ => .inl rfl }

theorem Answer.row_settles (batch : OutboxBatch) (answer : Answer) {r : OutboxItem}
    (h : r.attempted = true) : r.Settles (answer.row batch r) := by
  have hne : ∀ {r' : OutboxItem}, r.attempted = false → r' = r ∨ r'.attemptState = .stale :=
    fun h' => absurd (h.symm.trans h') (by decide)
  unfold Answer.row
  split
  · split
    · unfold recordTarget
      split
      · exact ⟨⟨rfl, rfl, rfl, rfl, rfl, id⟩, rfl, nofun, hne⟩
      · split
        · exact ⟨⟨rfl, rfl, rfl, rfl, rfl, id⟩, rfl, nofun, hne⟩
        · exact ⟨⟨rfl, rfl, rfl, rfl, rfl, fun _ => rfl⟩, rfl, nofun, hne⟩
    · exact ⟨⟨rfl, rfl, rfl, rfl, rfl, fun hd => by simp [OutboxItem.retry, OutboxItem.reach, hd]⟩,
        rfl, nofun, hne⟩
  · exact ⟨⟨rfl, rfl, rfl, rfl, rfl, fun hd => by simp [OutboxItem.retire, OutboxItem.reach, hd]⟩,
      rfl, nofun, hne⟩
  · exact ⟨⟨rfl, rfl, rfl, rfl, rfl, fun hd => by simp [OutboxItem.retry, OutboxItem.reach, hd]⟩,
      rfl, nofun, hne⟩
  · exact ⟨⟨rfl, rfl, rfl, rfl, rfl, fun hd => by simp [OutboxItem.reach, hd]⟩, rfl, id, hne⟩

/-! ## Runs -/

/-- The rows, and the batch a flush has handed to the server without recording its answer yet. -/
structure OutboxRun where
  rows : Outbox
  inFlight : Option OutboxBatch

inductive OutboxEvent
  | send (operationId : String) (targets : List SendTarget)
  | begin (now : Nat)
  | answer (answer : Answer)
  | rearm (operationId : String)
  | invalidate (devices : List String)

/-- A send names each device once, and the initial envelope of a session is its first. -/
def WellFormedSend (rows : Outbox) (targets : List SendTarget) : Prop :=
  (targets.map (·.recipientDeviceId)).Nodup ∧ ∀ t ∈ targets, t.kind = .initial → ∀ r ∈ rows,
    ¬(r.sessionId = t.sessionId ∧ r.recipientDeviceId = t.recipientDeviceId)

instance (rows : Outbox) (targets : List SendTarget) : Decidable (WellFormedSend rows targets) :=
  inferInstanceAs (Decidable (_ ∧ _))

/-- One step; a flush begins a batch only after the last one was answered or its process died. -/
def OutboxRun.next (s : OutboxRun) : OutboxEvent → Option OutboxRun
  | .send op targets =>
    if WellFormedSend s.rows targets then some { s with rows := commitSend op targets s.rows }
    else none
  | .begin now =>
    match s.inFlight with
    | some _ => none
    | none => (beginNextOutboxBatch now s.rows).map fun b => ⟨b.2, some b.1⟩
  | .answer a => s.inFlight.map fun batch => ⟨recordAnswer batch a s.rows, none⟩
  | .rearm op => some { s with rows := L5.rearm op s.rows }
  | .invalidate devices => some { s with rows := L5.invalidate devices s.rows }

def outboxSystem (allowed : OutboxRun → OutboxEvent → Prop) : System OutboxRun where
  init s := s = ⟨[], none⟩
  step s s' := ∃ e, allowed s e ∧ s.next e = some s'

/-- The state after a list of events that all meet `allowed`. -/
def OutboxRun.run (allowed : OutboxRun → OutboxEvent → Prop) [∀ s e, Decidable (allowed s e)] :
    List OutboxEvent → OutboxRun → Option OutboxRun
  | [], s => some s
  | e :: es, s => if allowed s e then (s.next e).bind (OutboxRun.run allowed es) else none

theorem OutboxRun.run_reachable {allowed : OutboxRun → OutboxEvent → Prop}
    [∀ s e, Decidable (allowed s e)] (es : List OutboxEvent) {s s' : OutboxRun}
    (h : OutboxRun.run allowed es s = some s') (hs : (outboxSystem allowed).Reachable s) :
    (outboxSystem allowed).Reachable s' := by
  induction es generalizing s with
  | nil => cases h; exact hs
  | cons e es ih =>
    unfold OutboxRun.run at h
    split at h
    · next ha =>
      obtain ⟨t, ht, h⟩ := Option.bind_eq_some_iff.mp h
      exact ih h (hs.step ⟨e, ha, ht⟩)
    · cases h

variable {rows : Outbox}

/-! ## The order of a session's envelopes -/

/-- `i` is the initial envelope of the session and device of the regular envelope `r`. -/
def OutboxItem.Opens (i r : OutboxItem) : Prop :=
  i.kind = .initial ∧ r.kind = .regular ∧ i.sessionId = r.sessionId ∧
    i.recipientDeviceId = r.recipientDeviceId

instance (i r : OutboxItem) : Decidable (i.Opens r) := inferInstanceAs (Decidable (_ ∧ _))

/-- No follow-up was handed to the server before its initial was accepted. -/
def InitialFirst (rows : Outbox) : Prop :=
  ∀ i ∈ rows, ∀ r ∈ rows, i.Opens r → r.attempted = true → i.delivered = true

/-- What the steps of a run have to meet: a follow-up of an initial the server has not accepted gets
the greater operation id, and no batch is begun while such an initial is neither due nor in
flight. -/
def KeepsOrder (s : OutboxRun) : OutboxEvent → Prop
  | .send op targets => ∀ t ∈ targets, t.kind = .regular → ∀ i ∈ s.rows, i.kind = .initial →
      i.sessionId = t.sessionId → i.recipientDeviceId = t.recipientDeviceId →
      i.delivered = false → i.operationId < op
  | .begin now => ∀ i ∈ s.rows, ∀ r ∈ s.rows, i.Opens r → i.delivered = false →
      r.attempted = false → r.attemptState = .queued →
      i.attemptState = .sending ∨ i.due now = true
  | _ => True

instance (s : OutboxRun) (e : OutboxEvent) : Decidable (KeepsOrder s e) :=
  match e with
  | .send _ _ => inferInstanceAs (Decidable (∀ t ∈ _, _))
  | .begin _ => inferInstanceAs (Decidable (∀ i ∈ _, _))
  | .answer _ | .rearm _ | .invalidate _ => inferInstanceAs (Decidable True)

structure OutboxInv (rows : Outbox) : Prop where
  key : ∀ r ∈ rows, ∀ m ∈ rows, r.operationId = m.operationId →
    r.recipientDeviceId = m.recipientDeviceId → r = m
  waiting : ∀ r ∈ rows, r.attempted = false →
    (r.attemptState = .queued ∧ r.nextAttemptAt = none) ∨ r.attemptState = .stale
  /-- rows of one batch are handed over together -/
  mates : ∀ r ∈ rows, r.attempted = false → r.attemptState = .queued → ∀ m ∈ rows,
    m.operationId = r.operationId → m.batchIndex = r.batchIndex → m.attemptState ≠ .sending
  later : ∀ i ∈ rows, ∀ r ∈ rows, i.Opens r → i.delivered = false → r.attempted = false →
    i.operationId < r.operationId
  first : InitialFirst rows

theorem OutboxItem.Keeps.opens {i i' r r' : OutboxItem} (hi : i.Keeps i') (hr : r.Keeps r') :
    i'.Opens r' ↔ i.Opens r := by
  unfold OutboxItem.Opens
  rw [hi.kind, hr.kind, hi.session, hr.session, hi.device, hr.device]

variable {f : OutboxItem → OutboxItem}

theorem OutboxItem.Keeps.undelivered {i i' : OutboxItem} (hi : i.Keeps i')
    (h : i'.delivered = false) : i.delivered = false := by
  cases hd : i.delivered with
  | false => rfl
  | true => exact absurd (hi.delivered hd) (by simp [h])

theorem OutboxInv.map (hi : OutboxInv rows) (hf : ∀ r ∈ rows, r.Keeps (f r))
    (hun : ∀ r ∈ rows, (f r).attempted = false → r.attempted = false ∧
      (((f r).attemptState = .queued ∧ (f r).nextAttemptAt = none) ∨ (f r).attemptState = .stale))
    (hmates : ∀ r ∈ rows, (f r).attempted = false → (f r).attemptState = .queued → ∀ m ∈ rows,
      m.operationId = r.operationId → m.batchIndex = r.batchIndex → (f m).attemptState ≠ .sending)
    (hfirst : ∀ i ∈ rows, ∀ r ∈ rows, i.Opens r → (f r).attempted = true → i.delivered = true) :
    OutboxInv (rows.map f) := by
  constructor <;> simp only [InitialFirst, List.forall_mem_map]
  · intro r hr m hm hop hd
    rw [(hf r hr).operation, (hf m hm).operation] at hop
    rw [(hf r hr).device, (hf m hm).device] at hd
    rw [hi.key r hr m hm hop hd]
  · exact fun r hr h => (hun r hr h).2
  · intro r hr h hq m hm hop hb
    rw [(hf m hm).operation, (hf r hr).operation] at hop
    rw [(hf m hm).batch, (hf r hr).batch] at hb
    exact hmates r hr h hq m hm hop hb
  · intro i hi' r hr ho hd h
    rw [(hf i hi').operation, (hf r hr).operation]
    exact hi.later i hi' r hr (((hf i hi').opens (hf r hr)).mp ho) ((hf i hi').undelivered hd)
      (hun r hr h).1
  · intro i hi' r hr ho h
    exact (hf i hi').delivered (hfirst i hi' r hr (((hf i hi').opens (hf r hr)).mp ho) h)

theorem OutboxInv.settle (hi : OutboxInv rows)
    (hf : ∀ r ∈ rows, r.Settles (f r)) : OutboxInv (rows.map f) := by
  have hun : ∀ r ∈ rows, (f r).attempted = false → r.attempted = false :=
    fun r hr h => (hf r hr).attempted ▸ h
  refine hi.map (fun r hr => (hf r hr).toKeeps) (fun r hr h => ⟨hun r hr h, ?_⟩) ?_ ?_
  · rcases (hf r hr).waiting (hun r hr h) with he | hs
    · rw [he]; exact hi.waiting r hr (hun r hr h)
    · exact .inr hs
  · intro r hr h hq m hm hop hb hsend
    have he := ((hf r hr).waiting (hun r hr h)).resolve_right fun hs => nomatch hq.symm.trans hs
    exact hi.mates r hr (hun r hr h) (he ▸ hq) m hm hop hb ((hf m hm).sending hsend)
  · exact fun i hi' r hr ho h => hi.first i hi' r hr ho ((hf r hr).attempted ▸ h)

/-! ## What beginning a batch does -/

variable {batch : OutboxBatch} {now : Nat}

theorem nextItem_cases {first : OutboxItem} (h : nextItem now rows = some first) :
    first ∈ rows ∧ (first.attemptState = .sending ∨ (∀ r ∈ rows, r.attemptState ≠ .sending) ∧
      ∀ r ∈ rows, r.due now = true → first.sortKey ≤ r.sortKey) := by
  unfold nextItem at h
  split at h
  · next f hf =>
    cases h
    have hmem := mem_filter.mp (List.argmin_mem (Option.mem_def.mpr hf))
    exact ⟨hmem.1, .inl (by simpa using hmem.2)⟩
  · next hf =>
    refine ⟨(mem_filter.mp (List.argmin_mem (Option.mem_def.mpr h))).1,
      .inr ⟨fun r hr hs => ?_, fun r hr hd => ?_⟩⟩
    · have hnone := List.argmin_eq_none.mp hf
      exact List.not_mem_nil (hnone ▸ mem_filter.mpr ⟨hr, by simpa using hs⟩)
    · exact List.le_of_mem_argmin (mem_filter.mpr ⟨hr, hd⟩) (Option.mem_def.mpr h)

theorem begin_inv {rows rows' : Outbox} (h : beginNextOutboxBatch now rows = some (batch, rows')) :
    ∃ first, nextItem now rows = some first ∧ batch.operationId = first.operationId ∧
      batch.targets = (batchItems now first rows).map (·.recipientDeviceId) ∧
      batchItems now first rows ≠ [] ∧
      rows' = updateOutboxBatch batch (·.hand batch.attempt) rows := by
  unfold beginNextOutboxBatch at h
  simp only [some_steps, Prod.mk.injEq] at h
  obtain ⟨first, hn, hne, hb, hr⟩ := h
  subst hb
  exact ⟨first, hn, rfl, rfl, hne, hr.symm⟩

variable {first r : OutboxItem}

theorem batch_has (hi : OutboxInv rows) (hop : batch.operationId = first.operationId)
    (ht : batch.targets = (batchItems now first rows).map (·.recipientDeviceId))
    (hr : r ∈ rows) : batch.has r = true ↔ r ∈ batchItems now first rows := by
  simp only [OutboxBatch.has, hop, ht, mem_map, decide_eq_true_eq]
  constructor
  · rintro ⟨hro, m, hm, hd⟩
    have hmem := mem_filter.mp hm
    have hmo : m.operationId = first.operationId := by simpa using (decide_eq_true_eq.mp hmem.2).1
    exact hi.key m hmem.1 r hr (hmo.trans hro.symm) hd ▸ hm
  · intro hm
    exact ⟨(decide_eq_true_eq.mp (mem_filter.mp hm).2).1, r, hm, rfl⟩

theorem mem_batchItems :
    r ∈ batchItems now first rows ↔ r ∈ rows ∧ r.operationId = first.operationId ∧
      r.batchIndex = first.batchIndex ∧ (r.attemptState = .sending ∨ r.due now = true) := by
  simp [batchItems]

theorem due_of_queued {r : OutboxItem} (hq : r.attemptState = .queued)
    (hn : r.nextAttemptAt = none) : r.due now = true := by
  simp [OutboxItem.due, hq, hn]

theorem initial_delivered_of_begun {first i r : OutboxItem}
    (hinv : OutboxInv rows) (hk : KeepsOrder ⟨rows, none⟩ (.begin now))
    (hn : nextItem now rows = some first) (hi : i ∈ rows) (hr : r ∈ batchItems now first rows)
    (ho : i.Opens r) (hun : r.attempted = false) : i.delivered = true := by
  obtain ⟨hrm, hop, hb, hst⟩ := mem_batchItems.mp hr
  by_contra hd
  rw [Bool.not_eq_true] at hd
  obtain ⟨hq, -⟩ : r.attemptState = .queued ∧ r.nextAttemptAt = none := by
    refine (hinv.waiting r hrm hun).resolve_right fun hs => ?_
    rcases hst with h | h
    · exact nomatch hs.symm.trans h
    · simp [OutboxItem.due, hs] at h
  have hlt := hinv.later i hi r hrm ho hd hun
  obtain ⟨hfirst, hs | ⟨hnone, hmin⟩⟩ := nextItem_cases hn
  · -- the row picked is in flight, so its batch was handed over as a whole
    exact hinv.mates r hrm hun hq first hfirst hop.symm hb.symm hs
  · -- nothing is in flight, and the initial is due with the smaller operation id
    have hdue := (hk i hi r hrm ho hd hun hq).resolve_left (hnone i hi)
    have hle := Prod.Lex.toLex_le_toLex.mp (hmin i hi hdue)
    rw [← hop] at hle
    rcases hle with h | ⟨h, -⟩
    · exact absurd hlt (not_lt_of_gt h)
    · exact absurd h.symm hlt.ne

theorem OutboxInv.begin {rows rows' : Outbox}
    (hinv : OutboxInv rows) (hk : KeepsOrder ⟨rows, none⟩ (.begin now))
    (h : beginNextOutboxBatch now rows = some (batch, rows')) : OutboxInv rows' := by
  obtain ⟨first, hn, hop, ht, -, rfl⟩ := begin_inv h
  -- a row of the batch is handed over, every other one is as it was
  have hcase : ∀ r ∈ rows, (r ∈ batchItems now first rows ∧
      (if batch.has r then r.hand batch.attempt else r) = r.hand batch.attempt) ∨
      (r ∉ batchItems now first rows ∧
        (if batch.has r then r.hand batch.attempt else r) = r) := by
    intro r hr
    by_cases hb : batch.has r = true
    · exact .inl ⟨(batch_has hinv hop ht hr).mp hb, if_pos hb⟩
    · exact .inr ⟨fun hm => hb ((batch_has hinv hop ht hr).mpr hm), if_neg hb⟩
  refine hinv.map ?_ ?_ ?_ ?_
  · intro r hr
    rcases hcase r hr with ⟨-, he⟩ | ⟨-, he⟩ <;> rw [he]
    · exact ⟨rfl, rfl, rfl, rfl, rfl, id⟩
    · exact (OutboxItem.Settles.refl r).toKeeps
  · intro r hr hun
    rcases hcase r hr with ⟨-, he⟩ | ⟨-, he⟩ <;> rw [he] at hun ⊢
    · exact nomatch hun
    · exact ⟨hun, hinv.waiting r hr hun⟩
  · intro r hr hun hq m hm hmo hmb hs
    rcases hcase r hr with ⟨-, he⟩ | ⟨hnot, he⟩ <;> rw [he] at hun hq
    · exact nomatch hun
    · rcases hcase m hm with ⟨hin, -⟩ | ⟨-, he'⟩
      · -- its mate went with this batch, and so would it have
        obtain ⟨-, hfo, hfb, -⟩ := mem_batchItems.mp hin
        have hnext : r.nextAttemptAt = none :=
          ((hinv.waiting r hr hun).resolve_right fun h => nomatch hq.symm.trans h).2
        exact hnot (mem_batchItems.mpr ⟨hr, hmo.symm.trans hfo, hmb.symm.trans hfb,
          .inr (due_of_queued hq hnext)⟩)
      · exact hinv.mates r hr hun hq m hm hmo hmb (he' ▸ hs)
  · intro i hi r hr ho hat
    by_cases hun : r.attempted = true
    · exact hinv.first i hi r hr ho hun
    · rcases hcase r hr with ⟨hin, -⟩ | ⟨-, he⟩
      · exact initial_delivered_of_begun hinv hk hn hi hin ho (by simpa using hun)
      · exact absurd (he ▸ hat) hun

variable {targets : List SendTarget}

/-! ## What the other steps do -/

variable {op : String}

theorem SendTarget.row_inj (hn : (targets.map (·.recipientDeviceId)).Nodup) :
    ∀ r ∈ targets.zipIdx.map (row op), ∀ m ∈ targets.zipIdx.map (row op),
      r.recipientDeviceId = m.recipientDeviceId → r = m := by
  have hn' : (targets.zipIdx.map fun t => t.1.recipientDeviceId).Nodup := by
    have : (targets.zipIdx.map fun t => t.1.recipientDeviceId) =
        (targets.zipIdx.map Prod.fst).map (·.recipientDeviceId) := by rw [List.map_map]; rfl
    rwa [this, List.zipIdx_map_fst]
  intro _ hr' _ hm' hd
  obtain ⟨r, hr, rfl⟩ := mem_map.mp hr'
  obtain ⟨m, hm, rfl⟩ := mem_map.mp hm'
  rw [List.inj_on_of_nodup_map hn' hr hm hd]

theorem OutboxInv.send
    (hinv : OutboxInv rows) (hwf : WellFormedSend rows targets) {f : Option OutboxBatch}
    (hk : KeepsOrder ⟨rows, f⟩ (.send op targets)) : OutboxInv (commitSend op targets rows) := by
  unfold commitSend
  split
  · exact hinv
  · next hany =>
    have hfresh : ∀ r ∈ rows, r.operationId ≠ op := by simpa using hany
    have hrow : ∀ r ∈ targets.zipIdx.map (SendTarget.row op), r.operationId = op ∧
        r.attempted = false ∧ r.attemptState = .queued ∧ r.nextAttemptAt = none ∧
        ∃ t ∈ targets, r.kind = t.kind ∧ r.sessionId = t.sessionId ∧
          r.recipientDeviceId = t.recipientDeviceId := by
      intro _ hr'
      obtain ⟨⟨t, j⟩, ht, rfl⟩ := mem_map.mp hr'
      exact ⟨rfl, rfl, rfl, rfl, t, List.fst_mem_of_mem_zipIdx ht, rfl, rfl, rfl⟩
    have hinitial : ∀ i ∈ targets.zipIdx.map (SendTarget.row op), ∀ r ∈ rows, ¬i.Opens r := by
      rintro i hi r hr ⟨hkind, -, hsess, hdev⟩
      obtain ⟨-, -, -, -, t, ht, htk, hts, htd⟩ := hrow i hi
      exact hwf.2 t ht (htk.symm.trans hkind) r hr
        ⟨hsess.symm.trans hts, hdev.symm.trans htd⟩
    refine ⟨?_, ?_, ?_, ?_, ?_⟩
    · intro r hr m hm hop hd
      rcases mem_append.mp hr with hr | hr <;> rcases mem_append.mp hm with hm | hm
      · exact hinv.key r hr m hm hop hd
      · exact absurd (hop.trans (hrow m hm).1) (hfresh r hr)
      · exact absurd (hop.symm.trans (hrow r hr).1) (hfresh m hm)
      · exact SendTarget.row_inj hwf.1 r hr m hm hd
    · intro r hr hun
      rcases mem_append.mp hr with hr | hr
      · exact hinv.waiting r hr hun
      · exact .inl ⟨(hrow r hr).2.2.1, (hrow r hr).2.2.2.1⟩
    · intro r hr hun hq m hm hop hb
      rcases mem_append.mp hm with hm | hm
      · rcases mem_append.mp hr with hr | hr
        · exact hinv.mates r hr hun hq m hm hop hb
        · exact absurd (hop.trans (hrow r hr).1) (hfresh m hm)
      · simp [(hrow m hm).2.2.1]
    · intro i hi r hr ho hd hun
      rcases mem_append.mp hr with hr | hr <;> rcases mem_append.mp hi with hi | hi
      · exact hinv.later i hi r hr ho hd hun
      · exact absurd ho (hinitial i hi r hr)
      · obtain ⟨hrop, -, -, -, t, ht, htk, hts, htd⟩ := hrow r hr
        obtain ⟨hik, hrk, hsess, hdev⟩ := ho
        rw [hrop]
        exact hk t ht (htk.symm.trans hrk) i hi hik (hsess.trans hts) (hdev.trans htd) hd
      · -- a send names the device once
        have := SendTarget.row_inj hwf.1 i hi r hr ho.2.2.2
        exact nomatch (this ▸ ho.1).symm.trans ho.2.1
    · intro i hi r hr ho hat
      rcases mem_append.mp hr with hr | hr
      · rcases mem_append.mp hi with hi | hi
        · exact hinv.first i hi r hr ho hat
        · exact absurd ho (hinitial i hi r hr)
      · exact absurd hat (by simp [(hrow r hr).2.1])

structure RunInv (s : OutboxRun) : Prop where
  rows : OutboxInv s.rows
  used : ∀ b, s.inFlight = some b → ∃ r ∈ s.rows, r.operationId = b.operationId
  flying : ∀ b, s.inFlight = some b → ∀ r ∈ s.rows, b.has r = true → r.attempted = true

variable {s : OutboxRun} (hi : RunInv s)
include hi

theorem RunInv.settle
    (hf : ∀ r ∈ s.rows, r.Settles (f r)) : RunInv { s with rows := s.rows.map f } := by
  refine ⟨hi.rows.settle hf, fun b hb => ?_, fun b hb _ hr' hhas => ?_⟩
  · obtain ⟨r, hr, hop⟩ := hi.used b hb
    exact ⟨f r, List.mem_map_of_mem hr, (hf r hr).operation.trans hop⟩
  · obtain ⟨r, hr, rfl⟩ := mem_map.mp hr'
    rw [(hf r hr).attempted]
    refine hi.flying b hb r hr ?_
    rwa [OutboxBatch.has, (hf r hr).operation, (hf r hr).device] at hhas

theorem RunInv.rearm (op : String) :
    RunInv { s with rows := L5.rearm op s.rows } := by
  refine hi.settle fun r hr => ?_
  split
  · next h =>
    refine ⟨⟨rfl, rfl, rfl, rfl, rfl, id⟩, rfl, nofun, fun hun => ?_⟩
    rcases hi.rows.waiting r hr hun with ⟨hq, -⟩ | hs
    · exact nomatch hq.symm.trans h.2
    · exact nomatch hs.symm.trans h.2
  · exact .refl r

theorem RunInv.invalidate (devices : List String) :
    RunInv { s with rows := L5.invalidate devices s.rows } := by
  refine hi.settle fun r _ => ?_
  split
  · exact ⟨⟨rfl, rfl, rfl, rfl, rfl, id⟩, rfl, nofun, fun _ => .inr rfl⟩
  · exact .refl r

theorem RunInv.answer (hb : s.inFlight = some batch) (a : Answer) :
    RunInv ⟨recordAnswer batch a s.rows, none⟩ := by
  refine ⟨hi.rows.settle fun r hr => ?_, nofun, nofun⟩
  split
  · next h => exact a.row_settles batch (hi.flying batch hb r hr h)
  · exact .refl r

theorem RunInv.begin (hk : KeepsOrder s (.begin now)) {rows' : Outbox}
    (h : beginNextOutboxBatch now s.rows = some (batch, rows')) :
    RunInv ⟨rows', some batch⟩ := by
  refine ⟨hi.rows.begin hk h, ?_, ?_⟩
  all_goals
    rintro _ ⟨⟩
    obtain ⟨first, hn, hop, -, -, rfl⟩ := begin_inv h
  · refine ⟨_, List.mem_map_of_mem (nextItem_cases hn).1, ?_⟩
    split <;> exact hop.symm
  · intro _ hr' hhas
    obtain ⟨r, -, rfl⟩ := mem_map.mp hr'
    by_cases hb : batch.has r = true
    · rw [if_pos hb]; rfl
    · rw [if_neg hb] at hhas; exact absurd hhas hb

theorem RunInv.send (hwf : WellFormedSend s.rows targets) (hk : KeepsOrder s (.send op targets)) :
    RunInv { s with rows := commitSend op targets s.rows } := by
  refine ⟨hi.rows.send hwf hk, fun b hb => ?_, fun b hb r hr hhas => ?_⟩
  · obtain ⟨r, hr, hop⟩ := hi.used b hb
    refine ⟨r, ?_, hop⟩
    unfold commitSend
    split
    · exact hr
    · exact List.mem_append_left _ hr
  · simp only [commitSend] at hr
    split at hr
    · exact hi.flying b hb r hr hhas
    · next hany =>
      rcases mem_append.mp hr with hr | hr
      · exact hi.flying b hb r hr hhas
      · -- the batch in flight is of an operation that has rows already
        obtain ⟨m, hm, hmo⟩ := hi.used b hb
        obtain ⟨t, -, rfl⟩ := mem_map.mp hr
        have hop : op = b.operationId := (decide_eq_true_eq.mp hhas).1
        have hfresh : ∀ r ∈ s.rows, r.operationId ≠ op := by simpa using hany
        exact absurd (hmo.trans hop.symm) (hfresh m hm)

omit hi

theorem outbox_inductive : (outboxSystem KeepsOrder).Inductive RunInv where
  init := by
    rintro _ rfl
    exact ⟨⟨nofun, nofun, nofun, nofun, nofun⟩, nofun, nofun⟩
  step := by
    rintro s s' hi ⟨e, hk, h⟩
    cases e with
    | send op targets =>
      simp only [OutboxRun.next] at h
      split at h
      · next hwf =>
        cases h
        exact hi.send hwf hk
      · cases h
    | begin now =>
      simp only [OutboxRun.next] at h
      split at h
      · cases h
      · obtain ⟨⟨batch, rows'⟩, hb, rfl⟩ := Option.map_eq_some_iff.mp h
        exact hi.begin hk hb
    | answer a =>
      obtain ⟨batch, hb, rfl⟩ := Option.map_eq_some_iff.mp h
      exact hi.answer hb a
    | rearm op => cases h; exact hi.rearm op
    | invalidate devices => cases h; exact hi.invalidate devices

/-- In every run whose steps keep the order, no follow-up is handed to the server before its initial
was accepted. -/
theorem initial_first (h : (outboxSystem KeepsOrder).Reachable s) : InitialFirst s.rows :=
  (outbox_inductive.reachable h).rows.first

def acceptAll (count : Nat) : Answer := .response ⟨count, [], []⟩ [] 0 0

def sendTarget (device : String) (kind : EnvelopeKind) (seed : UInt8) : SendTarget :=
  ⟨device, kind, Block.fill 16 seed⟩

/-- An initial and a follow-up whose operation ids are in the order of the sends. -/
def inOrderEvents : List OutboxEvent :=
  [.send "a" [sendTarget "phone" .initial 1],
    .send "b" [sendTarget "phone" .regular 1, sendTarget "tablet" .regular 2],
    .begin 0, .answer (acceptAll 1), .begin 0]

theorem initial_first_inOrderEvents :
    ∃ s, OutboxRun.run KeepsOrder inOrderEvents ⟨[], none⟩ = some s ∧ InitialFirst s.rows ∧
      ∃ i ∈ s.rows, ∃ r ∈ s.rows, i.Opens r ∧ r.attempted = true := by
  refine ⟨_, rfl, initial_first (OutboxRun.run_reachable inOrderEvents rfl (.init rfl)), ?_⟩
  decide

/-- Two sends whose operation ids are the other way round, and a flush of both. -/
def overtakingEvents : List OutboxEvent :=
  [.send "b" [sendTarget "phone" .initial 1], .send "a" [sendTarget "phone" .regular 1],
    .begin 0, .answer (acceptAll 1), .begin 0]

/-- The follow-up is handed over first, and accepted, before the initial leaves. -/
theorem follow_up_overtakes :
    ∃ s, OutboxRun.run (fun _ _ => True) overtakingEvents ⟨[], none⟩ = some s ∧
      (outboxSystem fun _ _ => True).Reachable s ∧
      ∃ i ∈ s.rows, ∃ r ∈ s.rows, i.Opens r ∧ r.attempted = true ∧ r.delivered = true ∧
        i.attempted = true ∧ i.delivered = false := by
  refine ⟨_, rfl, OutboxRun.run_reachable overtakingEvents rfl (.init rfl), ?_⟩
  decide

end CommPlatform.L5
