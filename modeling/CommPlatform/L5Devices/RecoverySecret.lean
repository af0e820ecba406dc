import CommPlatform.Core.Runs
import Mathlib.Logic.Function.Basic

/-!
# Rotating the recovery secret

`RotateRecoverySecret.call` wraps the identity under a new secret, uploads the
backup at a higher version and shows the secret once the server accepted it.
An upload is on its way until the server takes it, also when the call that
sent it has given up.
-/
namespace CommPlatform.Recovery

open CommPlatform.Core

/-- The backup the server stores. `secret` is the call whose secret it is wrapped under, or `none`
for the one that was shown at the enrollment. -/
structure KeyBackup (ι : Type) where
  version : Nat
  secret : Option ι

/-- Where a call is. `applied` and `refused` are what the server made of an upload whose answer
is on its way; `retried` tells the second upload from the first. -/
inductive Phase
  | preparing
  | uploading (attempt : Nat) (retried : Bool)
  | applied
  | refused (retried : Bool)
  | fetching
  | accepted
  | shown
  | failed
  | stopped
deriving DecidableEq

/-- What the answer to an upload makes of a call; the version is then recorded, whether or not that
succeeds, and the secret returned.
mirrors rotate_recovery_secret.dart:89-122 -/
def Phase.next : Phase → Option Phase
  | .applied => some .accepted
  | .refused retried => some (if retried then .failed else .fetching)
  | .accepted => some .shown
  | _ => none

/-- The call goes on to show its secret, or has. -/
def Phase.Shows : Phase → Prop
  | .applied | .accepted | .shown => True
  | _ => False

def Phase.Running : Phase → Prop
  | .shown | .failed | .stopped => False
  | _ => True

variable {ι : Type}

structure Upload (ι : Type) where
  call : ι
  attempt : Nat
  retried : Bool
deriving DecidableEq

/-- The backup of an account, the calls on its devices and what they sent. -/
structure Account (ι : Type) where
  stored : Option (KeyBackup ι)
  rotations : ι → Phase
  sent : List (Upload ι)

/-- The call that sent `u` still waits for the answer. -/
def Account.Awaits (w : Account ι) (u : Upload ι) : Prop :=
  w.rotations u.call = .uploading u.attempt u.retried

instance (w : Account ι) (u : Upload ι) : Decidable (w.Awaits u) :=
  inferInstanceAs (Decidable (_ = _))

variable [DecidableEq ι]

def Account.put (w : Account ι) (i : ι) (phase : Phase) : Account ι :=
  { w with rotations := Function.update w.rotations i phase }

def Account.send (w : Account ι) (u : Upload ι) : Account ι :=
  { w.put u.call (.uploading u.attempt u.retried) with sent := u :: w.sent }

/-- An answer that nobody waits for is dropped. -/
def Account.answer (w : Account ι) (u : Upload ι) (phase : Phase) : Account ι :=
  if w.Awaits u then w.put u.call phase else w

/-- The server refuses a version that is not above the stored one, and stores the backup else,
whether or not its caller is still there.
mirrors vault/services.py:24-39 -/
def Account.write (w : Account ι) (u : Upload ι) : Account ι :=
  if w.stored.any (u.attempt ≤ ·.version) then w.answer u (.refused u.retried)
  else { w with stored := some ⟨u.attempt, some u.call⟩ }.answer u .applied

/-- One step of a call, or of the server. A call loses what it waits for, or stops, where `drops`;
the upload of a call that does not wait for it any more is stored if `late`. -/
inductive Step (drops : Phase → Prop) (late : Prop) (w : Account ι) : Account ι → Prop
  /-- the version the device recorded, if it can be read -/
  | prepare (i : ι) (known : Option Nat) (h : w.rotations i = .preparing) :
      Step drops late w (w.send ⟨i, known.elim 1 (· + 1), false⟩)
  | upload (u : Upload ι) (h : u ∈ w.sent)
      (hlate : w.Awaits u ∨ w.stored.any (u.attempt ≤ ·.version) ∨ late) :
      Step drops late w ({ w with sent := w.sent.erase u }.write u)
  | advance (i : ι) (phase : Phase) (h : (w.rotations i).next = some phase) :
      Step drops late w (w.put i phase)
  /-- with no backup stored the read fails -/
  | fetch (i : ι) (h : w.rotations i = .fetching) : Step drops late w
      (w.stored.elim (w.put i .failed) fun backup => w.send ⟨i, backup.version + 1, true⟩)
  /-- a request or an answer is lost, or a step before the upload fails -/
  | fail (i : ι) (h : (w.rotations i).Running) (hopen : w.rotations i ≠ .accepted)
      (hdrops : drops (w.rotations i)) : Step drops late w (w.put i .failed)
  | stop (i : ι) (h : (w.rotations i).Running) (hdrops : drops (w.rotations i)) :
      Step drops late w (w.put i .stopped)

/-- Any number of calls, none begun, on a backup the user has the secret of. -/
def system (drops : Phase → Prop) (late : Prop) : System (Account ι) where
  init w := (∀ backup ∈ w.stored, backup.secret = none) ∧ (∀ i, w.rotations i = .preparing) ∧
    w.sent = []
  step := Step drops late

/-- The stored backup is not under a secret that is lost. -/
def Inv (w : Account ι) : Prop :=
  ∀ backup ∈ w.stored, ∀ i, backup.secret = some i → (w.rotations i).Shows

theorem shows_put {w : Account ι} {i j : ι} {phase : Phase} (hj : (w.rotations j).Shows)
    (h : (w.rotations i).Shows → phase.Shows) : ((w.put i phase).rotations j).Shows := by
  by_cases hji : j = i
  · subst hji
    simpa [Account.put] using h hj
  · simpa [Account.put, Function.update_of_ne hji] using hj

theorem Phase.next_shows {p q : Phase} (h : p.next = some q) (hp : p.Shows) : q.Shows := by
  cases p <;> simp_all [Phase.next, Phase.Shows]
  all_goals simp [← h]

theorem shows_answer {w : Account ι} {u : Upload ι} {j : ι} {phase : Phase}
    (hj : (w.rotations j).Shows) : ((w.answer u phase).rotations j).Shows := by
  unfold Account.answer
  split
  · next h =>
    rw [Account.Awaits] at h
    exact shows_put hj fun hi => by simp [h, Phase.Shows] at hi
  · exact hj

/-- A call that goes on to show its secret does, whatever steps are taken. -/
theorem Step.shows {w w' : Account ι} (h : Step (¬ Phase.Shows ·) False w w') {j : ι}
    (hj : (w.rotations j).Shows) : (w'.rotations j).Shows := by
  cases h with
  | prepare i known h => exact shows_put hj fun hi => by simp [h, Phase.Shows] at hi
  | fetch i h =>
    cases w.stored <;> exact shows_put hj fun hi => by simp [h, Phase.Shows] at hi
  | upload u h hlate =>
    unfold Account.write
    split
    · exact shows_answer hj
    · exact shows_answer (w := ⟨_, w.rotations, _⟩) hj
  | advance i phase h => exact shows_put hj (Phase.next_shows h)
  | fail i _ _ hdrops | stop i _ hdrops => exact shows_put hj fun hi => absurd hi hdrops

theorem stored_answer (w : Account ι) (u : Upload ι) (phase : Phase) :
    (w.answer u phase).stored = w.stored := by
  unfold Account.answer
  split <;> rfl

theorem inv_inductive : (@system ι _ (¬ Phase.Shows ·) False).Inductive Inv where
  init w h backup hb i hi := by simp [h.1 backup hb] at hi
  step w w' hw hstep backup hb i hi := by
    by_cases hold : backup ∈ w.stored
    · exact Step.shows hstep (hw backup hold i hi)
    · -- only an upload that the server applies stores another backup
      cases hstep with
      | upload u h hlate =>
        unfold Account.write at hb ⊢
        split at hb
        · rw [stored_answer] at hb
          exact absurd hb hold
        · next hnew =>
          rw [stored_answer] at hb
          cases hb
          cases hi
          -- its call still waits for the answer
          have hawaits : w.Awaits u := by simpa [hnew] using hlate
          rw [if_neg hnew, Account.answer, if_pos (by exact hawaits)]
          simp [Account.put, Phase.Shows]
      | fetch i h =>
        cases hs : w.stored <;> rw [hs] at hb <;> exact absurd (hs ▸ hb) hold
      | _ => exact absurd hb hold

end CommPlatform.Recovery
