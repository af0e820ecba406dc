import CommPlatform.L3Protocol.Conversation

/-!
# Skipped keys against any peer

Two counters of a header, which the peer chooses, drive the two loops of a
receive. They are bounded together before the first loop runs
(`countedDecrypt_passes`).
-/
namespace CommPlatform.L3

open CommPlatform.Core L1 L2
open Counted (passes_bind_le passes_lift_bind_le)

variable {P : CryptoProvider} {s : RatchetState}

theorem skipLoop_passes (k : Nat) (s : RatchetState) : (skipLoop P k s).passes ≤ k := by
  induction k generalizing s with
  | zero => exact le_rfl
  | succ k ih =>
    refine (passes_bind_le (x := Counted.pass) (le_refl 1) fun _ _ => ?_).trans_eq
      (Nat.add_comm 1 k)
    exact passes_lift_bind_le fun _ _ => passes_lift_bind_le fun _ _ =>
      passes_lift_bind_le fun _ _ => ih _

theorem skipReceivingKeys_passes (s : RatchetState) (u : UInt32) :
    (skipReceivingKeys P s u).passes ≤ u.toNat - s.receiveCount.toNat :=
  passes_lift_bind_le fun _ _ => passes_bind_le (n := 0) (skipLoop_passes _ s) fun _ _ => le_rfl

theorem ratchetReceive_passes (s : RatchetState) (header : RegularHeader) (e : Bytes) :
    (ratchetReceive P s header e).passes ≤
      header.previousChainLength.toNat - s.receiveCount.toNat := by
  refine passes_bind_le (n := 0) (skipReceivingKeys_passes s _) fun _ _ => ?_
  iterate 6 refine passes_lift_bind_le fun _ _ => ?_
  exact le_rfl

theorem openNext_passes (s : RatchetState) (recipient : Block 16) (env : Envelope)
    (header : RegularHeader) (bytes : Bytes) :
    (openNext P s recipient env header bytes).passes ≤
      header.messageNumber.toNat - s.receiveCount.toNat := by
  refine passes_bind_le (n := 0) (skipReceivingKeys_passes s _) fun _ _ => ?_
  iterate 4 refine passes_lift_bind_le fun _ _ => ?_
  exact le_rfl

variable {other : UInt32}

theorem projectedSkipWithinBounds_iff {additional : Nat} :
    projectedSkipWithinBounds s additional other = true ↔ s.skipped.length + additional ≤ 2000 ∧
      other.toNat + (s.skipped.length + additional) ≤ 20000 :=
  decide_eq_true_iff

/-- The gaps of both loops are bounded together before the first of them runs. -/
theorem countedDecrypt_passes (recipient : Block 16) (bytes : Bytes) (other : UInt32) (e : Bytes) :
    (countedDecrypt P s recipient bytes other e).passes ≤ 2000 := by
  refine passes_lift_bind_le fun _ _ => passes_lift_bind_le fun env _ => ?_
  split
  · exact Nat.zero_le _
  next header _ =>
  refine passes_lift_bind_le fun _ _ => ?_
  unfold receiveRegular
  split_ifs with hold hnew
  · exact passes_lift_bind_le fun _ _ => Nat.zero_le _
  · refine passes_lift_bind_le fun _ _ => ?_
    dsimp only
    split_ifs with hbound
    · rw [projectedSkipWithinBounds_iff] at hbound
      refine (passes_bind_le (ratchetReceive_passes s header e) fun s1 _ =>
        passes_bind_le (n := 0) ((openNext_passes s1 recipient env header bytes).trans
          (Nat.sub_le _ _)) fun _ _ => le_rfl).trans ?_
      omega
    · exact Nat.zero_le _
  · refine passes_lift_bind_le fun _ _ => ?_
    dsimp only
    split_ifs with hbound
    · rw [projectedSkipWithinBounds_iff] at hbound
      refine (passes_bind_le (n := 0) (openNext_passes s recipient env header bytes) fun _ _ =>
        le_rfl).trans ?_
      omega
    · exact Nat.zero_le _

theorem length_skippedTo (s : RatchetState) (u : UInt32) :
    (s.skippedTo P u).skipped.length ≤ s.skipped.length + (u.toNat - s.receiveCount.toNat) := by
  simp only [RatchetState.skippedTo, (sortSkipped_perm _).length_eq, List.length_append]
  cases s.receivingChain <;> simp [passedKeys]

variable {recipient : Block 16} {t : DecryptedTransition}

theorem length_openNext {env : Envelope} {header : RegularHeader} {bytes : Bytes}
    (h : (openNext P s recipient env header bytes).result = .ok t) :
    t.state.skipped.length ≤
      s.skipped.length + (header.messageNumber.toNat - s.receiveCount.toNat) := by
  obtain ⟨-, c, m, -, -, -, -, hfinish⟩ := openNext_eq_ok.mp h
  obtain ⟨token, hstate⟩ := inspectRepairControl_frame (finishOpen_eq_ok.mp hfinish).2.2
  rw [hstate]
  exact length_skippedTo s header.messageNumber

theorem length_ratchetDecrypt {bytes e : Bytes}
    (h : ratchetDecrypt P s recipient bytes other e = .ok (.prepared t)) :
    t.state.skipped.length ≤ s.skipped.length ∨
      t.state.skipped.length ≤ 2000 ∧ other.toNat + t.state.skipped.length ≤ 20000 := by
  obtain ⟨-, env, header, -, -, -, ⟨-, -, hopen⟩ | ⟨-, -, hbound, s1, hs1, hopen⟩ |
    ⟨-, -, hbound, hopen⟩⟩ := ratchetDecrypt_eq_prepared.mp h
  · obtain ⟨key, -, -, hfinish⟩ := openSkipped_eq_ok.mp hopen
    obtain ⟨token, hstate⟩ := inspectRepairControl_frame (finishOpen_eq_ok.mp hfinish).2.2
    rw [hstate]
    exact .inl List.length_eraseP_le
  · obtain ⟨-, -, dhReceive, -, h32, pub, dhSend, -, -, rfl⟩ := ratchetReceive_eq_ok.mp hs1
    have hskip := length_skippedTo (P := P) s header.previousChainLength
    have hlen := length_openNext hopen
    simp only [RatchetState.ratcheted, UInt32.toNat_zero, Nat.sub_zero] at hlen
    rw [projectedSkipWithinBounds_iff] at hbound
    exact .inr (by omega)
  · have hlen := length_openNext hopen
    rw [projectedSkipWithinBounds_iff] at hbound
    exact .inr (by omega)

def SkippedKey.Before (a b : SkippedKey) : Prop :=
  a.ratchetPublic.bytes < b.ratchetPublic.bytes ∨
    a.ratchetPublic = b.ratchetPublic ∧ a.messageNumber < b.messageNumber

theorem skippedOrder_eq_lt {a b : SkippedKey} : skippedOrder a b = .lt ↔ a.Before b := by
  unfold skippedOrder SkippedKey.Before
  split_ifs <;> simp_all

instance : IsTrans SkippedKey SkippedKey.Before where
  trans a b c hab hbc := by
    obtain hab | ⟨hab, hab'⟩ := hab <;> obtain hbc | ⟨hbc, hbc'⟩ := hbc
    · exact .inl (List.lt_trans hab hbc)
    · exact .inl (hbc ▸ hab)
    · exact .inl (hab ▸ hbc)
    · exact .inr ⟨hab.trans hbc, UInt32.lt_trans hab' hbc'⟩

theorem strictlySorted_pairwise {keys : List SkippedKey} (h : strictlySorted keys = true) :
    keys.Pairwise SkippedKey.Before := by
  rw [← List.isChain_iff_pairwise]
  induction keys with
  | nil => exact .nil
  | cons a keys ih =>
    cases keys with
    | nil => exact .singleton a
    | cons b keys =>
      simp only [strictlySorted, List.tail_cons, List.zip_cons_cons, List.all_cons,
        Bool.and_eq_true, beq_iff_eq, skippedOrder_eq_lt] at h
      exact .cons_cons h.1 (ih h.2)

/-- For every envelope and every count of the other sessions, `operation_decrypt` on a state that
can be decoded fails, asks for a repair, or emits a state whose skipped keys are in strict order, at
most 2000, and within the limit of the account if there are more than before; and its loops make at
most 2000 passes. -/
theorem skipped_bounded (P : CryptoProvider) (device : DeviceState) (recipientDeviceId : Block 16)
    (stateBytes : Bytes) (s : RatchetState) (hs : RatchetState.decode P device stateBytes = .ok s)
    (envelope : Bytes) (otherSessionsSkipped : UInt32) (entropy : Bytes) :
    ((∃ e, operationDecrypt P device recipientDeviceId stateBytes envelope otherSessionsSkipped
        entropy = .error e) ∨
      operationDecrypt P device recipientDeviceId stateBytes envelope otherSessionsSkipped
        entropy = .ok none ∨
      ∃ o, operationDecrypt P device recipientDeviceId stateBytes envelope otherSessionsSkipped
          entropy = .ok (some o) ∧
        o.state.skipped.Pairwise SkippedKey.Before ∧ o.state.skipped.length ≤ 2000 ∧
        (s.skipped.length < o.state.skipped.length →
          otherSessionsSkipped.toNat + o.state.skipped.length ≤ 20000)) ∧
    (countedDecrypt P s recipientDeviceId envelope otherSessionsSkipped entropy).passes ≤ 2000 := by
  refine ⟨?_, countedDecrypt_passes _ _ _ _⟩
  cases h : operationDecrypt P device recipientDeviceId stateBytes envelope otherSessionsSkipped
    entropy with
  | error e => exact .inl ⟨e, rfl⟩
  | ok outcome =>
    cases outcome with
    | none => exact .inr (.inl rfl)
    | some o =>
      refine .inr (.inr ⟨o, rfl, ?_⟩)
      simp only [operationDecrypt, hs, ok_bind] at h
      obtain ⟨outcome, hdecrypt, h⟩ := bind_eq_ok.mp h
      cases outcome with
      | repairRequired => cases h
      | prepared t =>
        obtain ⟨output, hout, h⟩ := bind_eq_ok.mp h
        cases h
        obtain ⟨b, hb, hout⟩ := bind_eq_ok.mp hout
        cases hout
        obtain ⟨hmax, hsorted, -⟩ := encode_eq_ok.mp hb
        have hbound := length_ratchetDecrypt hdecrypt
        exact ⟨strictlySorted_pairwise hsorted, hmax, fun hgrew => by dsimp only at *; omega⟩

/-- A state that can be decoded, and every envelope. -/
theorem skipped_bounded_sumAccepted : ∃ b,
    RatchetState.decode sumProvider (sumDevice 2) b = .ok sumAccepted ∧
      ∀ envelope other e,
        (countedDecrypt sumProvider sumAccepted (Block.fill 16 2) envelope other e).passes ≤
          2000 := by
  obtain ⟨b, hb⟩ := encode_of_noSkip (P := sumProvider) (s := sumAccepted) rfl (sumDevice 2)
  have hs : RatchetState.decode sumProvider (sumDevice 2) b = .ok sumAccepted :=
    (decode_encode_iff hb).mpr ⟨by decide, rfl⟩
  exact ⟨b, hs, fun envelope other e => (skipped_bounded _ _ _ b _ hs envelope other e).2⟩

end CommPlatform.L3
