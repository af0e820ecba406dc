import CommPlatform.L5Sync.Outbox

/-!
# Recording an acceptance

The engine counts the devices an answer names, and the store asks of each
target whether it was named, as stale first. The two agree if no device is
named both stale and full, which the parser of the answer refuses.
-/
namespace CommPlatform.L5

open List (Perm mem_filter)

/-- The tables that are written: the outbox, the remote devices of the sessions and of their
alternates, and the devices whose owners are looked up again. -/
structure TransportTables where
  rows : Outbox
  sessions : List String
  alternates : List String
  refreshRequests : List String

/-- Every target's row is written, and what is kept of a stale one goes.
mirrors drift_sync_store.dart:1566-1624 -/
def recordOutboxAcceptance (batch : OutboxBatch) (a : OutboxAcceptance) (retryFullAt : Nat)
    (t : TransportTables) : TransportTables :=
  let stale := batch.targets.filter (· ∈ a.staleDeviceIds)
  { rows := updateOutboxBatch batch (recordTarget a retryFullAt) t.rows
    sessions := t.sessions.filter (· ∉ stale)
    alternates := t.alternates.filter (· ∉ stale)
    refreshRequests := stale.foldl (fun requests d => requests.insert d) t.refreshRequests }

/-- The devices of the batch whose rows are in a state. -/
def OutboxBatch.marked (batch : OutboxBatch) (state : OutboxAttemptState) (rows : Outbox) :
    List String :=
  (rows.filter fun row => batch.has row ∧ row.attemptState = state).map (·.recipientDeviceId)

/-- What an answer says of a device. -/
def OutboxAcceptance.outcome (a : OutboxAcceptance) (device : String) : OutboxAttemptState :=
  if device ∈ a.staleDeviceIds then .stale
  else if device ∈ a.fullDeviceIds then .retryWait
  else .accepted

variable {batch : OutboxBatch} {a : OutboxAcceptance} {retryFullAt : Nat}

theorem recordTarget_row (row : OutboxItem) :
    (recordTarget a retryFullAt row).attemptState = a.outcome row.recipientDeviceId ∧
      (recordTarget a retryFullAt row).recipientDeviceId = row.recipientDeviceId ∧
      batch.has (recordTarget a retryFullAt row) = batch.has row := by
  unfold recordTarget OutboxAcceptance.outcome
  split_ifs <;> exact ⟨rfl, rfl, rfl⟩

/-- The rows in a state are those of the targets the answer gives it to. -/
theorem marked_perm {rows : Outbox} (state : OutboxAttemptState)
    (hrows : ((rows.filter batch.has).map (·.recipientDeviceId)).Perm batch.targets) :
    (batch.marked state (updateOutboxBatch batch (recordTarget a retryFullAt) rows)).Perm
      (batch.targets.filter (a.outcome · = state)) := by
  refine .trans (.of_eq ?_) (hrows.filter _)
  have hkept (row : OutboxItem) :
      (if batch.has row then recordTarget a retryFullAt row else row).recipientDeviceId =
        row.recipientDeviceId := by
    split_ifs
    · exact (@recordTarget_row batch a _ row).2.1
    · rfl
  rw [OutboxBatch.marked, updateOutboxBatch, List.filter_map, List.map_map, List.filter_map,
    List.filter_filter]
  simp only [Function.comp_def, hkept]
  refine congrArg _ (List.filter_congr fun row _ => ?_)
  cases h : batch.has row with
  | false => simp [h]
  | true => simp [h, @recordTarget_row batch a retryFullAt row]

/-- An answer that names no device twice is recorded as the server gave it. -/
theorem acceptance_recorded (batch : OutboxBatch) (a : OutboxAcceptance) (retryFullAt : Nat)
    (t : TransportTables) (htargets : batch.targets.Nodup)
    (hrows : ((t.rows.filter batch.has).map (·.recipientDeviceId)).Perm batch.targets)
    (hstale : a.staleDeviceIds.Nodup) (hfull : a.fullDeviceIds.Nodup)
    (hdisjoint : a.staleDeviceIds.Disjoint a.fullDeviceIds)
    (hvalid : isValidAcceptance batch a = true) :
    let t' := recordOutboxAcceptance batch a retryFullAt t
    (batch.marked .accepted t'.rows).length = a.accepted ∧
      (∀ d ∈ batch.marked .accepted t'.rows, d ∉ a.staleDeviceIds ∧ d ∉ a.fullDeviceIds) ∧
      (batch.marked .stale t'.rows).Perm a.staleDeviceIds ∧
      (batch.marked .retryWait t'.rows).Perm a.fullDeviceIds ∧
      t'.sessions = t.sessions.filter (· ∉ a.staleDeviceIds) ∧
      t'.alternates = t.alternates.filter (· ∉ a.staleDeviceIds) := by
  simp only [isValidAcceptance, List.all_eq_true, decide_eq_true_eq] at hvalid
  obtain ⟨hs, hf, hcount⟩ := hvalid
  -- the targets of which something holds are the devices named so
  have hnamed {p : String → Bool} {named : List String} (hnodup : named.Nodup)
      (h : ∀ d, d ∈ batch.targets ∧ p d = true ↔ d ∈ named) : (batch.targets.filter p).Perm named :=
    (List.perm_ext_iff_of_nodup (htargets.filter _) hnodup).2 fun d => mem_filter.trans (h d)
  have hmarked (state) := @marked_perm batch a retryFullAt t.rows state hrows
  have hkept (l : List String) : l.filter (· ∉ batch.targets.filter (· ∈ a.staleDeviceIds)) =
      l.filter (· ∉ a.staleDeviceIds) := List.filter_congr fun d _ => by grind
  refine ⟨?_, fun d hd => ?_, (hmarked .stale).trans (hnamed hstale fun d => ?_),
    (hmarked .retryWait).trans (hnamed hfull fun d => ?_), hkept _, hkept _⟩
  · have hsum := List.length_eq_length_filter_add (l := batch.targets)
      (· ∈ a.staleDeviceIds ++ a.fullDeviceIds)
    have hall := (hnamed (p := (· ∈ a.staleDeviceIds ++ a.fullDeviceIds))
      (hstale.append hfull hdisjoint) fun d => by simpa using Or.rec (hs d) (hf d)).length_eq
    have hrest : batch.targets.filter (a.outcome · = .accepted) =
        batch.targets.filter fun d => !decide (d ∈ a.staleDeviceIds ++ a.fullDeviceIds) :=
      List.filter_congr fun d _ => by grind [OutboxAcceptance.outcome]
    rw [List.length_append] at hall
    have hlen := (hmarked .accepted).length_eq
    rw [hrest] at hlen
    exact hlen.trans (by omega)
  · have := mem_filter.1 ((hmarked .accepted).mem_iff.1 hd)
    grind [OutboxAcceptance.outcome]
  · grind [OutboxAcceptance.outcome]
  · have := @hdisjoint d
    grind [OutboxAcceptance.outcome]

def twoInFlight : TransportTables :=
  let row device : OutboxItem :=
    ⟨"m", device, 0, .sending, 1, none, .regular, .fill 16 1, true, false⟩
  ⟨[row "x", row "y"], ["x", "y"], [], []⟩

theorem acceptance_recorded_stale :
    (recordOutboxAcceptance ⟨"m", 0, 1, ["x", "y"]⟩ ⟨1, ["x"], []⟩ 9 twoInFlight).sessions =
      ["y"] :=
  (acceptance_recorded ⟨"m", 0, 1, ["x", "y"]⟩ ⟨1, ["x"], []⟩ 9 twoInFlight (by decide)
    (.of_eq (by decide)) (by decide) (by decide) (by simp) (by decide)).2.2.2.2.1

/-- A device that is named stale and full is counted twice and marked once: a row is accepted where
the answer counts none. -/
theorem overlapping_acceptance :
    isValidAcceptance ⟨"m", 0, 1, ["x", "y"]⟩ ⟨0, ["x"], ["x"]⟩ = true ∧
      OutboxBatch.marked ⟨"m", 0, 1, ["x", "y"]⟩ .accepted (recordOutboxAcceptance
        ⟨"m", 0, 1, ["x", "y"]⟩ ⟨0, ["x"], ["x"]⟩ 9 twoInFlight).rows = ["y"] := by
  decide

end CommPlatform.L5
