import CommPlatform.L3Protocol.Operations

/-!
# Two devices and one session

A `Conv` is the session as both ends store it, with the regular envelopes
sealed so far. The ends start from what `initiate` and `accept_initial`
leave; they seal whenever they like, and any sealed envelope may be handed
to the other end, early, late, twice or never. An opening that fails leaves
both ends as they were, so it is no step.

`publics` is history: the ratchet public keys of the session, newest first.
"Fresh random secrets are distinct" is the condition that a drawn key is
none of them.
-/
namespace CommPlatform.L3

open CommPlatform.Core L1 L2

inductive Side
  | initiator | responder
deriving DecidableEq

def Side.peer : Side → Side
  | .initiator => .responder
  | .responder => .initiator

variable (s : Side)

@[simp] theorem Side.peer_peer : s.peer.peer = s := by cases s <;> rfl

@[simp] theorem Side.peer_ne : s.peer ≠ s := by cases s <;> decide

@[simp] theorem Side.ne_peer : s ≠ s.peer := by cases s <;> decide

theorem Side.eq_or_eq_peer (s t : Side) : s = t ∨ s = t.peer := by
  cases s <;> cases t <;> decide

/-- A sealed regular envelope: who sealed it, its header (the chain it belongs to, by ratchet public
key, the length of the sender's chain before, its number), what was sealed, and whether the other
end opened it. -/
structure Sent where
  sender : Side
  chain : Key
  previous : UInt32
  number : UInt32
  inner : Bytes
  envelope : Bytes
  delivered : Bool

structure Conv where
  state : Side → RatchetState
  sent : List Sent
  publics : List Key

namespace Conv

def put (c : Conv) (side : Side) (s : RatchetState) : Conv :=
  { c with
    state := Function.update c.state side s
    publics := if s.localRatchetPublic = (c.state side).localRatchetPublic then c.publics
      else s.localRatchetPublic :: c.publics }

variable (c : Conv) (side : Side) (s : RatchetState)

@[simp] theorem put_self : (c.put side s).state side = s := Function.update_self _ _ _

@[simp] theorem put_peer : (c.put side s).state side.peer = c.state side.peer :=
  Function.update_of_ne side.peer_ne _ _

@[simp] theorem put_of_peer : (c.put side.peer s).state side = c.state side :=
  Function.update_of_ne side.ne_peer _ _

theorem put_forall {c : Conv} {side : Side} {s : RatchetState} {Q : Side → RatchetState → Prop}
    (h : ∀ t, Q t (c.state t)) (hs : Q side s) (t : Side) : Q t ((c.put side s).state t) := by
  rcases t.eq_or_eq_peer side with rfl | rfl
  · rw [put_self]; exact hs
  · rw [put_peer]; exact h _

def afterSend (c : Conv) (side : Side) (inner : Bytes) (t : EncryptedTransition) : Conv :=
  { c.put side t.state with
    sent := c.sent ++ [⟨side, t.state.localRatchetPublic, t.state.previousSendCount,
      t.state.sendCount - 1, inner, t.envelope, false⟩] }

/-- The other end opened the envelope that stands between `before` and `after`. -/
def afterOpen (c : Conv) (before : List Sent) (msg : Sent) (after : List Sent)
    (t : DecryptedTransition) : Conv :=
  { c.put msg.sender.peer t.state with sent := before ++ { msg with delivered := true } :: after }

@[simp] theorem afterSend_state (inner : Bytes) (t : EncryptedTransition) :
    (c.afterSend side inner t).state = (c.put side t.state).state := rfl

@[simp] theorem afterOpen_state (before : List Sent) (msg : Sent) (after : List Sent)
    (t : DecryptedTransition) :
    (c.afterOpen before msg after t).state = (c.put msg.sender.peer t.state).state := rfl

/-- The ratchet key the tape `e` would give is not one of the session's. -/
def Fresh (P : CryptoProvider) (c : Conv) (e : Bytes) : Prop :=
  ∀ h pub, P.x25519Public (Block.ofTake 32 e h) = .ok pub → pub ∉ c.publics

/-- `ratchet_decrypt` of a sealed envelope at the end it is meant for. -/
def tryOpen (P : CryptoProvider) (c : Conv) (msg : Sent) (other : UInt32) (e : Bytes) :
    CryptoResult ReceiveOutcome :=
  ratchetDecrypt P (c.state msg.sender.peer) (c.state msg.sender.peer).localDeviceId msg.envelope
    other e

/-- A seal by either end, or an opening of an envelope that `Allowed` admits. -/
inductive Step (P : CryptoProvider) (Allowed : Conv → Sent → Prop) : Conv → Conv → Prop
  | send {c : Conv} (side : Side) (inner e : Bytes) (other : UInt32) (t : EncryptedTransition)
      (fresh : (c.state side).sendingChain = none → c.Fresh P e)
      (h : ratchetEncrypt P (c.state side) (c.state side).remoteDeviceId inner other e = .ok t) :
      Step P Allowed c (c.afterSend side inner t)
  | deliver {c : Conv} (before : List Sent) (msg : Sent) (after : List Sent) (e : Bytes)
      (other : UInt32) (t : DecryptedTransition) (hsent : c.sent = before ++ msg :: after)
      (allowed : Allowed c msg)
      (fresh : msg.chain ≠ (c.state msg.sender.peer).remoteRatchetPublic → c.Fresh P e)
      (h : c.tryOpen P msg other e = .ok (.prepared t)) :
      Step P Allowed c (c.afterOpen before msg after t)

end Conv

/-! ## Setting up -/

/-- A session set up between two honest devices with `initiate`, `probe_initial` and
`accept_initial`. -/
structure HonestSetup (P : CryptoProvider) where
  sender : DeviceState
  recipient : DeviceState
  senderId : Block 16
  recipientId : Block 16
  peer : PeerBundle
  classicalOneTime : Option OptionalClassicalPrekey
  pqOneTime : Option OptionalPqPrekey
  projection : AuthenticatedSenderProjection
  authorization : Bytes
  inner : Bytes
  entropy : Bytes
  other : UInt32
  existing : Bytes
  replaced : Bytes
  session : RatchetState
  envelope : Bytes
  probeToken : Key
  accepted : AcceptedInitial
  senderValid : sender.Valid P
  recipientValid : recipient.Valid P
  bundle : HonestBundle recipient peer classicalOneTime pqOneTime
  honest : HonestProjection sender senderId projection
  initiated : initiate P sender senderId recipientId peer classicalOneTime pqOneTime authorization
    inner other entropy = .ok (session, envelope)
  acceptedOk : acceptInitial P recipient recipientId envelope probeToken projection existing
    replaced = .ok accepted
  freshRatchet : session.localRatchetPublic ≠ session.remoteRatchetPublic

variable {P : CryptoProvider}

theorem HonestSetup.states (h : HonestSetup P) (hP : Correct P) :
    ∃ keys shared dh transcript wins spk,
      P.x25519Public keys.ratchetSecret = .ok keys.ratchetPublic ∧
      P.x25519Public spk.secretKey = .ok spk.publicKey ∧
      P.x25519Shared keys.ratchetSecret spk.publicKey = .ok dh ∧
      isZero keys.sessionId.bytes = false ∧
      h.session = initiatedSession h.senderId h.recipientId h.peer keys transcript
        (nextRoot P shared dh) (nextChainOf P (chainStart P shared dh)) ∧
      h.peer.signedPrekeyPublic = spk.publicKey ∧
      ∃ header : InitialHeader, header.sessionId = keys.sessionId ∧
        header.ratchetPublic = keys.ratchetPublic ∧
        h.accepted.session = acceptedSession h.recipientId h.senderId header transcript wins
          (nextRoot P shared dh) (nextChainOf P (chainStart P shared dh)) spk := by
  obtain ⟨-, -, repair, keys, _, shared, header, dh, transcript, hrep, ha, hsh, hhead, hdh,
    henc, -, -⟩ :=
    initiate_inv h.initiated
  obtain ⟨_, ct, sigInput, sig, token, hread⟩ :=
    probe_of_initiate hP h.senderValid h.recipientValid h.bundle ha hhead henc
  obtain ⟨-, probe, _, _, _, _, _, ex, hprobe, htoken, hre, -, -, hex, hdem, -, -⟩ :=
    acceptInitial_inv h.acceptedOk
  rw [hread.probe] at hprobe; cases hprobe
  rw [h.honest.deviceId] at hre hex hdem
  obtain ⟨probe, acc, keys, _, shared, dh, transcript, spk, _, hprobe, hacc, ha, hdh, -, hs, hspk,
    hpub, hacs, -⟩ := accept_of_initiate hP h.senderValid h.recipientValid h.bundle h.honest
      h.initiated hrep hre hex hdem
  rw [hread.probe] at hprobe; cases hprobe
  rw [htoken, h.acceptedOk] at hacc; cases hacc
  exact ⟨keys, shared, dh, transcript, _, spk, ha.ratchetPublic,
    h.recipientValid.classical _ _ hspk, hpub.symm ▸ hdh, ha.sessionId_ne, hs, hpub.symm, _, rfl, rfl,
    hacs⟩

def HonestSetup.start {P : CryptoProvider} (h : HonestSetup P) : Conv where
  state
    | .initiator => h.session
    | .responder => h.accepted.session
  sent := []
  publics := [h.session.localRatchetPublic, h.session.remoteRatchetPublic]

/-- The runs of a session between two honest devices. -/
def sessionOf (P : CryptoProvider) (Allowed : Conv → Sent → Prop) : System Conv where
  init c := ∃ h : HonestSetup P, c = h.start
  step := Conv.Step P Allowed

/-! ## Runs that can be computed -/

inductive Act
  | send (side : Side) (inner e : Bytes)
  | deliver (index : Nat) (e : Bytes)

namespace Conv

def freshB (P : CryptoProvider) (c : Conv) (e : Bytes) : Bool :=
  if h : 32 ≤ e.length then
    match P.x25519Public (Block.ofTake 32 e h) with
    | .ok pub => pub ∉ c.publics
    | .error _ => true
  else true

theorem fresh_of_freshB {c : Conv} {e : Bytes} (h : c.freshB P e = true) : c.Fresh P e := by
  intro h32 pub hp
  simpa [freshB, h32, hp] using h

/-- One action with no other session's skipped keys; an envelope is opened at most once. -/
def perform (P : CryptoProvider) (c : Conv) : Act → Option Conv
  | .send side inner e => do
    guard ((c.state side).sendingChain.isSome || c.freshB P e)
    let t ← (ratchetEncrypt P (c.state side) (c.state side).remoteDeviceId inner 0 e).toOption
    return c.afterSend side inner t
  | .deliver i e =>
    match c.sent.drop i with
    | [] => none
    | msg :: after => do
      guard (!msg.delivered && (msg.chain = (c.state msg.sender.peer).remoteRatchetPublic ||
        c.freshB P e))
      match ← (c.tryOpen P msg 0 e).toOption with
      | .prepared t => return c.afterOpen (c.sent.take i) msg after t
      | .repairRequired => none

def performs (P : CryptoProvider) (c : Conv) (acts : List Act) : Option Conv :=
  acts.foldlM (perform P) c

variable {c c' : Conv}

theorem step_of_perform {Allowed : Conv → Sent → Prop} {a : Act}
    (hall : ∀ i e, a = .deliver i e → ∀ msg ∈ c.sent, msg.delivered = false → Allowed c msg)
    (h : c.perform P a = some c') : Step P Allowed c c' := by
  cases a with
  | send side inner e =>
    simp only [perform, guard, some_steps] at h
    obtain ⟨_, hg, t, ht, rfl⟩ := h
    have hg' : (c.state side).sendingChain.isSome = true ∨ c.freshB P e = true := by
      by_contra hn
      simp_all
    refine .send side inner e 0 t (fun hnone => ?_) (ok_of_toOption ht)
    exact fresh_of_freshB (hg'.resolve_left (by simp [hnone]))
  | deliver i e =>
    simp only [perform] at h
    split at h
    · cases h
    · rename_i msg after hdrop
      simp only [guard, some_steps] at h
      obtain ⟨_, hg, outcome, ht, h⟩ := h
      have hg' : msg.delivered = false ∧
          (msg.chain = (c.state msg.sender.peer).remoteRatchetPublic ∨ c.freshB P e = true) := by
        by_contra hn
        simp_all
      cases outcome with
      | repairRequired => cases h
      | prepared t =>
        cases h
        have hsent : c.sent = c.sent.take i ++ msg :: after := by
          rw [← hdrop, List.take_append_drop]
        exact .deliver _ msg after e 0 t hsent (hall i e rfl msg (by rw [hsent]; simp) hg'.1)
          (fun hne => fresh_of_freshB (hg'.2.resolve_left hne)) (ok_of_toOption ht)

theorem reachable_of_performs {acts : List Act}
    (hc : (sessionOf P (fun _ msg => msg.delivered = false)).Reachable c)
    (h : c.performs P acts = some c') :
    (sessionOf P (fun _ msg => msg.delivered = false)).Reachable c' := by
  induction acts generalizing c with
  | nil => cases h; exact hc
  | cons a acts ih =>
    simp only [performs, List.foldlM_cons, some_steps] at h
    obtain ⟨c1, h1, h2⟩ := h
    exact ih (.step hc (step_of_perform (fun _ _ _ _ _ hd => hd) h1)) h2

end Conv

/-! ## Two sum devices -/

def sumInitiated : RatchetState where
  sessionId := Block.fill 16 5
  localDeviceId := Block.fill 16 1
  remoteDeviceId := Block.fill 16 2
  initiatorDeviceId := Block.fill 16 1
  transcriptHash := Block.fill 32 0
  primary := true
  receiveOnly := false
  rootKey := Block.fill 32 8
  sendingChain := some (Block.fill 32 10)
  receivingChain := none
  localRatchetSecret := Block.fill 32 5
  localRatchetPublic := Block.fill 32 5
  remoteRatchetPublic := Block.fill 32 2
  sendCount := 1
  receiveCount := 0
  previousSendCount := 0
  skipped := []
  issuedRepairToken := none
  receivedRepairToken := none

def sumAccepted : RatchetState where
  sessionId := Block.fill 16 5
  localDeviceId := Block.fill 16 2
  remoteDeviceId := Block.fill 16 1
  initiatorDeviceId := Block.fill 16 1
  transcriptHash := Block.fill 32 0
  primary := true
  receiveOnly := false
  rootKey := Block.fill 32 8
  sendingChain := none
  receivingChain := some (Block.fill 32 10)
  localRatchetSecret := Block.fill 32 2
  localRatchetPublic := Block.fill 32 2
  remoteRatchetPublic := Block.fill 32 5
  sendCount := 0
  receiveCount := 1
  previousSendCount := 0
  skipped := []
  issuedRepairToken := none
  receivedRepairToken := none

def sumConv : Conv where
  state
    | .initiator => sumInitiated
    | .responder => sumAccepted
  sent := []
  publics := [Block.fill 32 5, Block.fill 32 2]

-- a definition, for the run to be evaluated where it stands
theorem sumHandshake : (do
    let started ← initiate sumProvider (sumDevice 1) (Block.fill 16 1) (Block.fill 16 2)
      (sumBundle 2 two_nonzero) none none [] [10] 0 (List.replicate 4096 5)
    let probe ← probeInitial sumProvider (sumDevice 2) (Block.fill 16 2) started.2
    let accepted ← acceptInitial sumProvider (sumDevice 2) (Block.fill 16 2) started.2
      probe.probeToken (sumProjection 1 one_nonzero) [] []
    return (started.1, accepted.session)) = .ok (sumInitiated, sumAccepted) := by
  decide +kernel

theorem sumSetup : ∃ h : HonestSetup sumProvider, h.start = sumConv ∧ h.sender = sumDevice 1 ∧
    h.recipient = sumDevice 2 ∧ h.accepted.session = sumAccepted := by
  have h := sumHandshake
  simp only [ok_steps, Prod.mk.injEq] at h
  obtain ⟨⟨session, envelope⟩, hinit, probe, -, acc, hacc, rfl, hses⟩ := h
  refine ⟨⟨sumDevice 1, sumDevice 2, _, _, sumBundle 2 (by decide), none, none, _, _, _, _, _, _, _,
    sumInitiated, envelope, _, acc, sumDevice_valid 1, sumDevice_valid 2, ?_,
    sumProjection_honest 1 (by decide), hinit, hacc, by decide⟩, ?_, rfl, rfl, hses⟩
  · have hb := sumBundle_honest 2 (by decide)
    exact ⟨hb.ik, hb.signed, hb.pqSigned, by simp, by simp⟩
  · simp only [sumConv, HonestSetup.start, hses]
    rfl

theorem sumConv_init (Allowed : Conv → Sent → Prop) : (sessionOf sumProvider Allowed).init sumConv
    := by
  obtain ⟨h, hstart, -⟩ := sumSetup
  exact ⟨h, hstart.symm⟩

end CommPlatform.L3
