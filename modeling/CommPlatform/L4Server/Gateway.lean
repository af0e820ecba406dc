import CommPlatform.Core.Runs

/-!
# A socket of a device whose session ends

`serve` reads the token once, subscribes the topic of the device and accepts
the socket. `revoke` and `logout` commit and then publish one close message,
which stops the socket if its subscription is confirmed; while it waits for
the confirmation it gets the message only if the topic is subscribed for
another socket already.
-/
namespace CommPlatform.Realtime

open CommPlatform.Core

/-- Where the call of `serve` is; `closed` is also a refused handshake.
mirrors gateway.py:111-143, 276-283 -/
inductive Phase
  | opening
  | authenticated
  | subscribing
  | subscribed
  | serving
  | closed
deriving DecidableEq

/-- What `serve` does after the read of the token.
mirrors gateway.py:115-138 -/
def Phase.next : Phase → Option Phase
  | .authenticated => some .subscribing
  | .subscribing => some .subscribed
  | .subscribed => some .serving
  | _ => none

/-- The row of the device and one connection. `unpublished` counts the ends of a session that are
committed and whose close message is not out; `tgen` is the generation in the token of the
connection, `stopped` whether its `_stop` is set. -/
structure Gateway where
  tokenGeneration : Nat
  revoked : Bool
  unpublished : Nat
  tgen : Nat
  phase : Phase
  stopped : Bool

/-- The token is one of the device as it is, of an active account.
mirrors api/auth.py:145-175 -/
def Gateway.loads (w : Gateway) : Bool := !w.revoked && w.tokenGeneration == w.tgen

/-- A close message reaches the connection; `heard` is whether it does before the confirmation.
mirrors gateway.py:187-197, bus.py:193-219, 283-285 -/
def Gateway.deliver (w : Gateway) (heard : Bool) : Gateway :=
  match w.phase with
  | .subscribed | .serving => { w with stopped := true }
  | .subscribing => { w with stopped := w.stopped || heard }
  | _ => w

/-- One step of the connection or of the end of a session. A close message is published where
`allowed`. -/
inductive Step (allowed : Gateway → Prop) (w : Gateway) : Gateway → Prop
  | authenticate (h : w.phase = .opening) :
      Step allowed w { w with phase := if w.loads then .authenticated else .closed }
  | advance (phase : Phase) (h : w.phase.next = some phase) : Step allowed w { w with phase }
  /-- `_stop_watch` ends a stopped connection; any other may end for another reason -/
  | close : Step allowed w { w with phase := .closed }
  /-- the transaction of `revoke`, or with `revokes` false the update of `logout` -/
  | commit (revokes : Bool) : Step allowed w { w with
      tokenGeneration := w.tokenGeneration + 1
      revoked := w.revoked || revokes
      unpublished := w.unpublished + 1 }
  /-- `close_device_sockets`, after the commit -/
  | publish (heard : Bool) (h : 0 < w.unpublished) (hallowed : allowed w) :
      Step allowed w (Gateway.deliver { w with unpublished := w.unpublished - 1 } heard)

def system (allowed : Gateway → Prop) : System Gateway where
  init w := w.unpublished = 0 ∧ w.phase = .opening
  step := Step allowed

/-- The connection is accepted, and nothing is going to close it. -/
def Gateway.Served (w : Gateway) : Prop := w.phase = .serving ∧ w.stopped = false

/-- The token is not ended while the connection is between its read and the subscription. -/
def Gateway.NotBetween (w : Gateway) : Prop :=
  w.phase = .authenticated ∨ w.phase = .subscribing → w.loads = true

/-- A connection past the read that is not stopped has a good token, or its message is to come. -/
def Inv (w : Gateway) : Prop :=
  w.phase ≠ .opening → w.phase ≠ .closed → w.stopped = false → w.loads = true ∨ 0 < w.unpublished

theorem Phase.past_opening {p q : Phase} (h : p.next = some q) : p ≠ .opening ∧ p ≠ .closed := by
  cases p <;> simp_all [Phase.next]

/-- A connection past the read that a close message does not stop waits for its subscription. -/
theorem inv_deliver {w : Gateway} (h : w.NotBetween) (heard : Bool) : Inv (w.deliver heard) := by
  obtain ⟨tokenGeneration, revoked, unpublished, tgen, phase, stopped⟩ := w
  intro hopening hclosed hstopped
  cases phase <;> simp_all [Gateway.deliver, Gateway.NotBetween, Gateway.loads]

theorem inv_inductive : (system Gateway.NotBetween).Inductive Inv where
  init w h hopening := absurd h.2 hopening
  step w w' hw hstep := by
    cases hstep with
    | authenticate h =>
      intro _ hclosed _
      by_cases hgood : w.loads = true
      · exact .inl hgood
      · exact absurd (if_neg hgood) hclosed
    | advance phase h => exact fun _ _ => hw (Phase.past_opening h).1 (Phase.past_opening h).2
    | close => exact fun _ hclosed => absurd rfl hclosed
    | commit revokes => exact fun _ _ _ => .inr (Nat.succ_pos _)
    | publish heard h hallowed =>
      have hsent : Gateway.NotBetween { w with unpublished := w.unpublished - 1 } := hallowed
      exact inv_deliver hsent heard

/-- In a run in which no close message finds the connection with an ended token between the read and
the subscription, it is not served on an ended token once every message is published. -/
theorem ended_session_served_no_more (w : Gateway) (hw : (system Gateway.NotBetween).Reachable w)
    (hpublished : w.unpublished = 0) (hserved : w.Served) : w.loads = true := by
  obtain ⟨hphase, hstopped⟩ := hserved
  obtain hloads | hpending :=
    inv_inductive.reachable hw (by simp [hphase]) (by simp [hphase]) hstopped
  · exact hloads
  · omega

def oneSocket : Gateway := ⟨1, false, 0, 1, .opening, false⟩

/-- The device is revoked once its socket is served, and the message stops the socket. -/
theorem ended_session_served_no_more_one : ∃ w,
    (system Gateway.NotBetween).Reachable w ∧ w.revoked = true ∧ w.unpublished = 0 ∧ ¬ w.Served := by
  have hr : (system Gateway.NotBetween).Reachable _ := .step (.step (.step (.step (.step (.step
    (.init (s := oneSocket) ⟨rfl, rfl⟩) (.authenticate rfl)) (.advance _ rfl)) (.advance _ rfl))
    (.advance _ rfl)) (.commit true)) (.publish false Nat.one_pos fun h => by
      obtain h | h := h <;> cases h)
  refine ⟨_, hr, rfl, rfl, fun hserved => ?_⟩
  exact absurd (ended_session_served_no_more _ hr rfl hserved) (by decide)

/-- The device is revoked and the message published after the token was read, and before the topic
is subscribed: the socket is accepted and nothing closes it. -/
theorem socket_outlives_revocation : ∃ w, (system fun _ => True).Reachable w ∧ w.revoked = true ∧
    w.unpublished = 0 ∧ w.Served ∧ w.loads = false := by
  have hr : (system fun _ => True).Reachable _ := .step (.step (.step (.step (.step (.step
    (.init (s := oneSocket) ⟨rfl, rfl⟩) (.authenticate rfl)) (.commit true))
    (.publish false Nat.one_pos trivial)) (.advance _ rfl)) (.advance _ rfl)) (.advance _ rfl)
  exact ⟨_, hr, rfl, rfl, ⟨rfl, rfl⟩, rfl⟩

end CommPlatform.Realtime
