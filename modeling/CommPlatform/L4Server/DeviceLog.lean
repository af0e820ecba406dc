import CommPlatform.L4Server.Devices

/-!
# The device-list log of the backend

Model of `append_log` and `peer_log` (backend/devices/services.py:485-533),
with the device list and the identity that go with them. The server assigns
the sequence and serves the bytes back; it checks no chain. The log is
contiguous from 0 and never pruned, so a record's sequence is its place in the
list.
-/
namespace CommPlatform.Server

open CommPlatform.Core

/-- mirrors devices/services.py:485-516 -/
def appendLog (S : Settings) (db : Tables) (user : Uuid) (records : List Bytes) :
    Except ApiError ((Nat × Nat) × Tables) := do
  let start := (db.log user).length
  failIf (start + records.length > S.maxDevicelogRecords)
    ⟨409, "devicelog_limit", "The device-list log of this account is full."⟩
  return ((start, start + records.length - 1),
    { db with log := fun u => if u = user then db.log u ++ records else db.log u })

structure LogPage where
  records : List (Nat × Bytes)
  hasMore : Bool
  headSeq : Option Nat

/-- `Max("seq")` of the log. -/
def headSeq (log : List Bytes) : Option Nat := if log = [] then none else some (log.length - 1)

/-- `seq__gt` of the cursor, where no cursor is -1. -/
def firstAfter (after : Option Nat) : Nat := after.elim 0 (· + 1)

/-- The page of a log. mirrors devices/services.py:519-533 -/
def logPage (log : List Bytes) (after : Option Nat) (limit : Nat) : LogPage where
  records := (((log.drop (firstAfter after)).take limit).zipIdx (firstAfter after)).map
    fun (blob, seq) => (seq, blob)
  hasMore := limit < (log.drop (firstAfter after)).length
  headSeq := headSeq log

/-- mirrors devices/schemas.py:80 -/
def devicelogPageCap : Nat := 200

/-- mirrors devices/services.py:519-533, schemas.py:329-340 -/
def peerLog (db : Tables) (user : Uuid) (after : Option Nat) : LogPage :=
  logPage (if db.active user then db.log user else []) after devicelogPageCap

theorem headSeq_eq_some {log : List Bytes} {n : Nat} :
    headSeq log = some n ↔ log.length = n + 1 := by
  unfold headSeq
  split
  · next h => simp [h]
  · next h =>
    have := List.length_pos_of_ne_nil h
    simp only [Option.some.injEq]
    omega

end CommPlatform.Server
