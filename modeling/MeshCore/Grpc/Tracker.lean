import MeshCore.Wire.Header
import MeshCore.Lib.Collections

/-!
# Message status records (`mesh-grpc/src/message_tracker.rs`)

The tracker has one record for each message the node has sent, under the message
ID alone. `update_status` overwrites the status, the text and the time of the
record it finds; there is no check of where the update comes from or of the
status the record has.

Mirroring notes: the time is an argument, in nanoseconds; the system clock, which
gives the timestamp in seconds, and the monotonic clock are one. A `DashMap` is a
hash map.
-/

namespace MeshCore.Grpc

open MeshCore.Lib

/-- `MessageStatus` (`data.proto`). -/
inductive MessageStatus where
  | unspecified
  | undeliverable
  | queued
  | pendingNode
  | pendingClient
  | delivered
  | waitingForClientAck
  | ackSuccess
  | ackFailure
  deriving Repr, DecidableEq

/-- The `as i32` cast of a status. -/
def MessageStatus.code : MessageStatus → Int
  | .unspecified => 0
  | .undeliverable => 1
  | .queued => 2
  | .pendingNode => 3
  | .pendingClient => 4
  | .delivered => 5
  | .waitingForClientAck => 6
  | .ackSuccess => 7
  | .ackFailure => 8

/-- The statuses of a completed record. -/
def MessageStatus.isFinal : MessageStatus → Bool
  | .delivered => true
  | .ackSuccess => true
  | .ackFailure => true
  | .undeliverable => true
  | _ => false

/-- Nanoseconds in a second. -/
def nanosPerSec : Nat := 1000000000

/-- `MessageRecord`. -/
structure MessageRecord where
  msgId : UInt64
  status : MessageStatus
  statusMessage : String
  timestamp : Nat
  requireAck : Bool
  createdAt : Nat
  deriving Repr, DecidableEq

namespace MessageRecord

/-- `MessageRecord::new`. -/
def new (msgId : UInt64) (status : MessageStatus) (statusMessage : String) (requireAck : Bool)
    (now : Nat) : MessageRecord :=
  { msgId, status, statusMessage, timestamp := now / nanosPerSec, requireAck, createdAt := now }

/-- `MessageRecord::update_status`. -/
def updateStatus (record : MessageRecord) (status : MessageStatus) (statusMessage : String)
    (now : Nat) : MessageRecord :=
  { record with status, statusMessage, timestamp := now / nanosPerSec }

/-- `MessageRecord::is_completed`. -/
def isCompleted (record : MessageRecord) : Bool := record.status.isFinal

/-- `CLEANUP_RETENTION_SECONDS`. -/
def cleanupRetentionSeconds : Nat := 300

/-- `MessageRecord::should_cleanup`. -/
def shouldCleanup (record : MessageRecord) (now : Nat) : Bool :=
  record.isCompleted && (now - record.createdAt) / nanosPerSec > cleanupRetentionSeconds

/-- An update leaves a record as it is when it says what the record says. -/
theorem updateStatus_eq_self {record : MessageRecord} {status : MessageStatus}
    {statusMessage : String} {now : Nat} :
    record.updateStatus status statusMessage now = record ↔
      record.status = status ∧ record.statusMessage = statusMessage ∧
        record.timestamp = now / nanosPerSec := by
  obtain ⟨msgId, status', statusMessage', timestamp, requireAck, createdAt⟩ := record
  simp only [updateStatus, MessageRecord.mk.injEq, true_and, and_true]
  exact ⟨fun ⟨h₁, h₂, h₃⟩ => ⟨h₁.symm, h₂.symm, h₃.symm⟩,
    fun ⟨h₁, h₂, h₃⟩ => ⟨h₁.symm, h₂.symm, h₃.symm⟩⟩

end MessageRecord

/-- `MessageTracker`: its records. -/
abbrev MessageTracker := HashMap UInt64 MessageRecord

namespace MessageTracker

/-- `track_message`. -/
def trackMessage (t : MessageTracker) (msgId : UInt64) (status : MessageStatus)
    (statusMessage : String) (requireAck : Bool) (now : Nat) : MessageTracker :=
  t.insert msgId (.new msgId status statusMessage requireAck now)

/-- `update_status`. -/
def updateStatus (t : MessageTracker) (msgId : UInt64) (status : MessageStatus)
    (statusMessage : String) (now : Nat) : MessageTracker :=
  match t.lookup msgId with
  | some record => t.insert msgId (record.updateStatus status statusMessage now)
  | none => t

/-- One round of the cleanup task. -/
def cleanup (t : MessageTracker) (now : Nat) : MessageTracker :=
  HashMap.retain (fun msgId => !(t.lookup msgId).any fun record => record.shouldCleanup now) t

theorem lookup_cleanup (t : MessageTracker) (now : Nat) (msgId : UInt64) :
    (t.cleanup now).lookup msgId
      = (t.lookup msgId).filter fun record => !record.shouldCleanup now := by
  unfold cleanup
  rw [HashMap.lookup_retain]
  cases t.lookup msgId with
  | none => simp
  | some record => cases h : record.shouldCleanup now <;> simp [h, Option.filter]

theorem lookup_updateStatus (t : MessageTracker) (msgId msgId' : UInt64) (status : MessageStatus)
    (statusMessage : String) (now : Nat) :
    (t.updateStatus msgId status statusMessage now).lookup msgId'
      = if msgId' = msgId then (t.lookup msgId).map fun record =>
          record.updateStatus status statusMessage now
        else t.lookup msgId' := by
  unfold updateStatus
  cases hlookup : t.lookup msgId with
  | none =>
    by_cases heq : msgId' = msgId
    · rw [if_pos heq, heq]
      exact hlookup
    · rw [if_neg heq]
  | some record => exact HashMap.lookup_insert_ite t msgId msgId' _

/-- An update makes and removes no records. -/
theorem isSome_updateStatus (t : MessageTracker) (msgId msgId' : UInt64) (status : MessageStatus)
    (statusMessage : String) (now : Nat) :
    ((t.updateStatus msgId status statusMessage now).lookup msgId').isSome
      = (t.lookup msgId').isSome := by
  rw [lookup_updateStatus]
  split
  next heq => rw [Option.isSome_map, heq]
  next => rfl

/-- **When an update changes nothing:** the message has no record, or one that
says the same already. -/
theorem updateStatus_unchanged_iff (t : MessageTracker) (msgId : UInt64) (status : MessageStatus)
    (statusMessage : String) (now : Nat) :
    (∀ msgId', (t.updateStatus msgId status statusMessage now).lookup msgId' = t.lookup msgId') ↔
      ∀ record, t.lookup msgId = some record →
        record.status = status ∧ record.statusMessage = statusMessage ∧
          record.timestamp = now / nanosPerSec := by
  constructor
  · intro h record hlookup
    have hsame := h msgId
    rw [lookup_updateStatus, if_pos rfl, hlookup] at hsame
    exact MessageRecord.updateStatus_eq_self.mp (Option.some.inj hsame)
  · intro h msgId'
    rw [lookup_updateStatus]
    split
    next heq =>
      rw [heq]
      cases hlookup : t.lookup msgId with
      | none => rfl
      | some record =>
        exact congrArg some (MessageRecord.updateStatus_eq_self.mpr (h record hlookup))
    next => rfl

end MessageTracker

end MeshCore.Grpc
