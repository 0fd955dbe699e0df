import MeshCore.Grpc.Data

/-!
# Retries (`mesh-grpc/src/message_queue.rs`)

A message stays pending from `queue_message` until a status says that it has
arrived or was acknowledged. Until then the retry processor takes it out on every
pass it is due in, counts the attempt, writes the status `Queued` or, after too
many attempts, `Undeliverable`, sends it again and puts it back.

Mirroring notes:
- `now` is what the clock gives to a status; `tick` is the `now` of a pass, from
  which the pass counts.
- One message of a pass is two definitions, up to the send (`retryTake`) and from
  it on (`retrySend`), so that a run can show what is seen in between.
- `2_u32.pow` wraps as in a release build. The product with the base interval is
  taken to fit a `Duration`.
- The status streams of `send_with_status_stream` are those of `Streams.lean`. Nothing in the
  repository calls `notify_node_online` or `notify_client_subscribed`, which read the
  lists of waiting messages.
-/

namespace MeshCore.Grpc

open MeshCore.Lib MeshCore.Session
open MeshCore.Topology (NodeId)

/-- `MessageQueueConfig`: what the retry processor reads of it. -/
structure MessageQueueConfig where
  maxRetryAttempts : UInt32
  baseRetryInterval : Nat
  maxRetryInterval : Nat
  deriving Repr, DecidableEq

/-- `MessageQueueConfig::default`. -/
def MessageQueueConfig.default : MessageQueueConfig :=
  { maxRetryAttempts := 10, baseRetryInterval := 1 * nanosPerSec
    maxRetryInterval := 60 * nanosPerSec }

/-- `WaitCondition`. -/
inductive WaitCondition where
  | nodeOnline (nodeId : NodeId)
  | clientSubscription (nodeId : NodeId)
  deriving Repr, DecidableEq

/-- `waiting_messages`. -/
abbrev WaitingMessages := HashMap WaitCondition (List UInt64)

/-- `waiting.entry(condition).or_insert_with(Vec::new).push(msg_id)`. -/
def WaitingMessages.push (waiting : WaitingMessages) (condition : WaitCondition)
    (msgId : UInt64) : WaitingMessages :=
  waiting.insert condition ((waiting.lookup condition).getD [] ++ [msgId])

/-- The statuses that end the retries of a message. -/
def MessageStatus.settles : MessageStatus → Bool
  | .delivered => true
  | .waitingForClientAck => true
  | .ackSuccess => true
  | .ackFailure => true
  | _ => false

namespace MessageQueue

/-! ## Statuses -/

/-- `handle_message_delivered`. -/
def handleMessageDelivered (q : MessageQueue) (msgId : UInt64) : MessageQueue :=
  { q with pendingMessages := q.pendingMessages.erase msgId }

/-- `handle_message_acked`. -/
def handleMessageAcked (q : MessageQueue) (msgId : UInt64) : MessageQueue :=
  { q with pendingMessages := q.pendingMessages.erase msgId }

/-- What `handle_routing_feedback` does to the pending messages. -/
def settle (q : MessageQueue) (msgId : UInt64) (status : MessageStatus) : MessageQueue :=
  match status with
  | .delivered => q.handleMessageDelivered msgId
  | .waitingForClientAck => q.handleMessageDelivered msgId
  | .ackSuccess => q.handleMessageAcked msgId
  | .ackFailure => q.handleMessageAcked msgId
  | _ => q

/-- What it does to the waiting messages. -/
def await (q : MessageQueue) (waiting : WaitingMessages) (msgId : UInt64)
    (status : MessageStatus) : WaitingMessages :=
  match q.pendingMessages.lookup msgId, status with
  | some queued, .pendingNode => waiting.push (.nodeOnline queued.message.dstNode) msgId
  | some queued, .pendingClient => waiting.push (.clientSubscription queued.message.dstNode) msgId
  | _, _ => waiting

/-- `MessageQueue::handle_routing_feedback`, with the tracker it shares with the
service. -/
def handleRoutingFeedback (q : MessageQueue) (waiting : WaitingMessages) (tracker : MessageTracker)
    (msgId : UInt64) (status : MessageStatus) (message : String) (now : Nat) :
    MessageQueue × WaitingMessages × MessageTracker :=
  (q.settle msgId status, q.await waiting msgId status,
    tracker.updateStatus msgId status message now)

/-- Make the messages of a list due at once, as far as they are pending. -/
def resetRetry (q : MessageQueue) (now : Nat) (msgIds : List UInt64) : MessageQueue :=
  msgIds.foldl
    (fun q msgId =>
      match q.pendingMessages.lookup msgId with
      | some queued =>
        { q with
          pendingMessages := q.pendingMessages.insert msgId { queued with nextRetryAt := now } }
      | none => q)
    q

/-- Take a condition out of the waiting list, and make its messages due. -/
def notify (q : MessageQueue) (waiting : WaitingMessages) (condition : WaitCondition) (now : Nat) :
    MessageQueue × WaitingMessages :=
  match waiting.lookup condition with
  | some msgIds => (q.resetRetry now msgIds, waiting.erase condition)
  | none => (q, waiting)

/-- `notify_node_online`. -/
def notifyNodeOnline (q : MessageQueue) (waiting : WaitingMessages) (nodeId : NodeId)
    (now : Nat) : MessageQueue × WaitingMessages :=
  q.notify waiting (.nodeOnline nodeId) now

/-- `notify_client_subscribed`. -/
def notifyClientSubscribed (q : MessageQueue) (waiting : WaitingMessages) (nodeId : NodeId)
    (now : Nat) : MessageQueue × WaitingMessages :=
  q.notify waiting (.clientSubscription nodeId) now

/-! ## The retry processor -/

/-- The messages a pass will retry. -/
def due (q : MessageQueue) (tick : Nat) : List UInt64 :=
  (q.pendingMessages.entries.filter fun e => tick ≥ e.2.nextRetryAt).map Sigma.fst

/-- The time until the next attempt. -/
def retryDelay (config : MessageQueueConfig) (retryCount : UInt32) : Nat :=
  min (config.baseRetryInterval * (2 ^ (retryCount.toNat - 1) % 2 ^ 32)) config.maxRetryInterval

/-- One message of a pass, up to the send: the message taken out, if it goes on. -/
def retryTake (q : MessageQueue) (tracker : MessageTracker) (config : MessageQueueConfig)
    (tick now : Nat) (msgId : UInt64) : MessageQueue × MessageTracker × Option QueuedMessage :=
  match q.pendingMessages.lookup msgId with
  | none => (q, tracker, none)
  | some queued =>
    let q := { q with pendingMessages := q.pendingMessages.erase msgId }
    let queued := { queued with retryCount := queued.retryCount + 1 }
    if queued.retryCount > config.maxRetryAttempts then
      (q, tracker.updateStatus msgId .undeliverable
        ("Max retry attempts (" ++ toString config.maxRetryAttempts ++ ") exceeded") now, none)
    else
      let queued := { queued with nextRetryAt := tick + retryDelay config queued.retryCount }
      (q, tracker.updateStatus msgId .queued
        ("Retry attempt " ++ toString queued.retryCount ++ " of "
          ++ toString config.maxRetryAttempts) now, some queued)

/-- The rest, from the send on, with what is put on the outbound channel. -/
def retrySend (q : MessageQueue) (tracker : MessageTracker) (now : Nat) (msgId : UInt64)
    (queued : QueuedMessage) (isOpen : Bool) :
    MessageQueue × MessageTracker × List OutboundMessage :=
  if isOpen then
    ({ q with pendingMessages := q.pendingMessages.insert msgId queued }, tracker,
      [queued.message])
  else (q, tracker.updateStatus msgId .undeliverable "Failed to retry: channel closed" now, [])

/-! ## What becomes of a pending message -/

theorem lookup_erase (q : HashMap UInt64 QueuedMessage) (msgId msgId' : UInt64) :
    (q.erase msgId).lookup msgId' = if msgId' = msgId then none else q.lookup msgId' := by
  by_cases h : msgId' = msgId
  · rw [if_pos h, h, AList.lookup_erase]
  · rw [if_neg h, AList.lookup_erase_ne h]

/-- **A status ends the retries** of its message if it is one of four, and of no
other message. -/
theorem lookup_settle (q : MessageQueue) (msgId msgId' : UInt64) (status : MessageStatus) :
    (q.settle msgId status).pendingMessages.lookup msgId'
      = if msgId' = msgId ∧ status.settles = true then none
        else q.pendingMessages.lookup msgId' := by
  unfold settle handleMessageDelivered handleMessageAcked MessageStatus.settles
  cases status <;> simp [lookup_erase]

/-- **A notification changes the time of the next attempt** and nothing else. -/
theorem lookup_resetRetry (q : MessageQueue) (now : Nat) (msgIds : List UInt64)
    (msgId : UInt64) :
    (q.resetRetry now msgIds).pendingMessages.lookup msgId
      = (q.pendingMessages.lookup msgId).map fun queued =>
          if msgId ∈ msgIds then { queued with nextRetryAt := now } else queued := by
  induction msgIds generalizing q with
  | nil => simp [resetRetry]
  | cons msgId' msgIds ih =>
    refine (ih _).trans ?_
    dsimp only
    cases hlookup : q.pendingMessages.lookup msgId' with
    | none =>
      by_cases hid : msgId = msgId'
      · rw [hid, hlookup]
        rfl
      · simp [hid]
    | some queued =>
      dsimp only
      rw [HashMap.lookup_insert_ite]
      by_cases hid : msgId = msgId'
      · rw [if_pos hid, hid, hlookup]
        simp
      · rw [if_neg hid]
        simp [hid]

/-- A notification keeps the message and the number of attempts of every pending entry. -/
theorem lookup_notify (q : MessageQueue) (waiting : WaitingMessages) (condition : WaitCondition)
    (now : Nat) (msgId : UInt64) :
    ((q.notify waiting condition now).1.pendingMessages.lookup msgId).map
        (fun queued => (queued.message, queued.retryCount))
      = (q.pendingMessages.lookup msgId).map fun queued => (queued.message, queued.retryCount) := by
  unfold notify
  cases waiting.lookup condition with
  | none => rfl
  | some msgIds =>
    dsimp only
    rw [lookup_resetRetry, Option.map_map]
    congr 1
    funext queued
    rw [Function.comp_apply]
    split
    · rfl
    · rfl

/-! ## What a pass visits -/

theorem mem_due_iff {q : MessageQueue} {tick : Nat} {msgId : UInt64} :
    msgId ∈ q.due tick ↔
      ∃ queued, q.pendingMessages.lookup msgId = some queued ∧ tick ≥ queued.nextRetryAt := by
  unfold due
  rw [List.mem_map]
  constructor
  · intro h
    obtain ⟨⟨id, queued⟩, hmem, rfl⟩ := h
    obtain ⟨hentry, hdue⟩ := List.mem_filter.mp hmem
    exact ⟨queued, HashMap.mem_entries_iff.mp hentry, of_decide_eq_true hdue⟩
  · intro h
    obtain ⟨queued, hlookup, hdue⟩ := h
    exact ⟨⟨msgId, queued⟩, List.mem_filter.mpr
      ⟨HashMap.mem_entries_iff.mpr hlookup, decide_eq_true hdue⟩, rfl⟩

theorem due_nodup (q : MessageQueue) (tick : Nat) : (q.due tick).Nodup := by
  have hkeys : (q.pendingMessages.entries.map Sigma.fst).Nodup := q.pendingMessages.nodupKeys
  exact hkeys.sublist (List.filter_sublist.map Sigma.fst)

end MessageQueue

end MeshCore.Grpc
