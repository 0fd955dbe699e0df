import MeshCore.Grpc.Control
import MeshCore.Grpc.Delivery
import MeshCore.Grpc.Queue

/-!
# A node's data service at work (`mesh-grpc/src/data.rs`)

`DataNode` is the service with the parts it works with: the retry processor, the
subscribers and the waiting messages. `handleIncomingMessage` is the rest of
`handle_incoming_message` after its first two checks, and `DataNode.step` is one
event at the node.

Two results about single messages. The status message of an acknowledgment
changes nothing at the sender, because `handle_delivery_status_message` does not
know its two codes (`ack_reaches_sender_iff`). And what an acknowledgment leaves
behind at the receiver is not read when the message comes again
(`retry_unseen_iff`).

Mirroring notes:
- `serde_json::to_vec` and `from_slice` are parameters.
- One round of the retry processor is an event that collects the messages that
  are due, and then two events for each of them, before and after the send.
- A call of `send_with_status_stream` is no event here. `Network/Served.lean` has such
  calls beside these events, and `Streams.lean` has what their streams show.
-/

namespace MeshCore.Grpc

open MeshCore.Lib MeshCore.Wire MeshCore.Session
open MeshCore.Topology (NodeId)

/-- The retry processor within a pass: the time the pass counts from, the messages
it still goes through, and the one it has taken out. -/
structure RetryPass where
  tick : Nat
  todo : List UInt64
  inHand : Option (UInt64 × QueuedMessage)

/-- A node's data service and what belongs to it. -/
structure DataNode where
  service : MeshDataService
  config : MessageQueueConfig
  waitingMessages : WaitingMessages
  retryPass : RetryPass
  deliveryQueue : DeliveryQueue

namespace DataNode

/-- The records of the node's messages. -/
abbrev messageTracker (n : DataNode) : MessageTracker := n.service.messageTracker

/-- The messages the node may send again. -/
abbrev pendingMessages (n : DataNode) : HashMap UInt64 QueuedMessage :=
  n.service.messageQueue.pendingMessages

/-- Keep a queue and a tracker. -/
def withQueue (n : DataNode) (messageQueue : MessageQueue) (messageTracker : MessageTracker) :
    DataNode :=
  { n with service := { n.service with messageQueue, messageTracker } }

/-! ## Status messages -/

/-- The codes that `handle_delivery_status_message` knows. -/
def statusOfCode (code : Int) : Option MessageStatus :=
  if code = MessageStatus.delivered.code then some .delivered
  else if code = MessageStatus.pendingClient.code then some .pendingClient
  else if code = MessageStatus.waitingForClientAck.code then some .waitingForClientAck
  else if code = MessageStatus.undeliverable.code then some .undeliverable
  else none

/-- `handle_delivery_status_message`. -/
def handleDeliveryStatusMessage (n : DataNode)
    (fromSlice : Bytes → Option DeliveryStatusMessage) (message : Received) (now : Nat) :
    DataNode :=
  match fromSlice message.payload with
  | none => n
  | some deliveryStatus =>
    match statusOfCode deliveryStatus.status with
    | none => n
    | some status =>
      let messageTracker := n.messageTracker.updateStatus deliveryStatus.originalMsgId status
        deliveryStatus.statusMessage now
      -- the queue updates the tracker once more
      let (messageQueue, waitingMessages, messageTracker) :=
        n.service.messageQueue.handleRoutingFeedback n.waitingMessages messageTracker
          deliveryStatus.originalMsgId status deliveryStatus.statusMessage now
      { n.withQueue messageQueue messageTracker with waitingMessages }

/-! ## Messages that arrive -/

/-- What a call leaves: the node, the messages on the outbound channel, and the
subscriptions the message was sent to. -/
structure Handled where
  node : DataNode
  outbound : List OutboundMessage
  handed : List UInt64

/-- The status of a message that arrived, sent back if the message has an ID. -/
def report (n : DataNode) (toVec : DeliveryStatusMessage → Option Bytes) (message : Received)
    (status : MessageStatus) (statusMessage : String) : List OutboundMessage :=
  if message.msgId = 0 then []
  else (n.service.deliveryStatusToSource toVec message.srcNode message.msgId status
    statusMessage).toList

/-- `handle_incoming_message`, for a message of an application. -/
def handleApplicationMessage (n : DataNode) (toVec : DeliveryStatusMessage → Option Bytes)
    (message : Received) : Handled :=
  if n.deliveryQueue.subscriberCount = 0 then
    ⟨n, n.report toVec message .pendingClient "No active subscribers to deliver message to", []⟩
  else
    let (deliveryQueue, handed) := n.deliveryQueue.deliver message
    let n := { n with deliveryQueue }
    if handed.length > 0 then
      if message.requireAck then
        ⟨n, n.report toVec message .waitingForClientAck ("Message delivered to "
          ++ toString handed.length ++ " subscribers, waiting for acknowledgment"), handed⟩
      else
        ⟨n, n.report toVec message .delivered ("Message delivered successfully to "
          ++ toString handed.length ++ " subscribers"), handed⟩
    else
      ⟨n, n.report toVec message .pendingClient "No subscribers matched the message filters",
        handed⟩

/-- `handle_incoming_message`. -/
def handleIncomingMessage (n : DataNode) (toVec : DeliveryStatusMessage → Option Bytes)
    (fromSlice : Bytes → Option DeliveryStatusMessage) (message : Received) (now : Nat) :
    Handled :=
  match incoming n.service.nodeId message with
  | .notForUs => ⟨n, [], []⟩
  | .deliveryStatus => ⟨n.handleDeliveryStatusMessage fromSlice message now, [], []⟩
  | .application => n.handleApplicationMessage toVec message

/-! ## Events -/

/-- What can happen to a message after it is tracked. -/
inductive StatusEvent where
  | incoming (message : Received) (now : Nat)
  | routingFeedback (feedback : RoutingFeedback) (now : Nat)
  | ackMessage (ack : Ack) (now : Nat)
  | retryTick (now : Nat)
  | retryTake (now : Nat)
  | retrySend (now : Nat) (isOpen : Bool)
  | cleanup (now : Nat)

/-- What can happen at a node. -/
inductive NodeEvent where
  | status (event : StatusEvent)
  | send (req : SendRequest) (now : Nat) (isOpen : Bool)
  | subscribe (req : SubscribeRequest)
  | unsubscribe (subId : UInt64)
  | dropReceiver (subId : UInt64)

/-- The retry processor takes up the next message of its pass. -/
def retryTake (n : DataNode) (now : Nat) : DataNode :=
  match n.retryPass.inHand, n.retryPass.todo with
  | none, msgId :: todo =>
    let (messageQueue, messageTracker, queued) :=
      n.service.messageQueue.retryTake n.messageTracker n.config n.retryPass.tick now msgId
    { n.withQueue messageQueue messageTracker with
      retryPass := { n.retryPass with todo, inHand := queued.map fun q => (msgId, q) } }
  | _, _ => n

/-- The retry processor sends the message it has taken out. -/
def retrySend (n : DataNode) (now : Nat) (isOpen : Bool) : DataNode × List OutboundMessage :=
  match n.retryPass.inHand with
  | some (msgId, queued) =>
    let (messageQueue, messageTracker, outbound) :=
      n.service.messageQueue.retrySend n.messageTracker now msgId queued isOpen
    ({ n.withQueue messageQueue messageTracker with
        retryPass := { n.retryPass with inHand := none } }, outbound)
  | none => (n, [])

/-- One event after a message is tracked. -/
def statusStep (toVec : DeliveryStatusMessage → Option Bytes)
    (fromSlice : Bytes → Option DeliveryStatusMessage) (n : DataNode) : StatusEvent → Handled
  | .incoming message now => n.handleIncomingMessage toVec fromSlice message now
  | .routingFeedback feedback now =>
    ⟨n.withQueue n.service.messageQueue (handleRoutingFeedback n.messageTracker feedback now),
      [], []⟩
  | .ackMessage ack now =>
    let (service, outbound) := n.service.ackMessage toVec ack now
    ⟨{ n with service }, outbound.toList, []⟩
  | .retryTick now =>
    ⟨match n.retryPass.inHand, n.retryPass.todo with
      | none, [] => { n with
          retryPass := { tick := now, todo := n.service.messageQueue.due now, inHand := none } }
      | _, _ => n, [], []⟩
  | .retryTake now => ⟨n.retryTake now, [], []⟩
  | .retrySend now isOpen => let (n, outbound) := n.retrySend now isOpen; ⟨n, outbound, []⟩
  | .cleanup now =>
    ⟨n.withQueue n.service.messageQueue (n.messageTracker.cleanup now), [], []⟩

/-- One event at the node. -/
def step (toVec : DeliveryStatusMessage → Option Bytes)
    (fromSlice : Bytes → Option DeliveryStatusMessage) (n : DataNode) : NodeEvent → Handled
  | .status event => n.statusStep toVec fromSlice event
  | .send req now isOpen =>
    let sent := n.service.send req now isOpen
    ⟨{ n with service := sent.service }, sent.outbound, []⟩
  | .subscribe req =>
    ⟨{ n with deliveryQueue := (n.deliveryQueue.subscribe (.ofRequest req)).1 }, [], []⟩
  | .unsubscribe subId => ⟨{ n with deliveryQueue := n.deliveryQueue.unsubscribe subId }, [], []⟩
  | .dropReceiver subId => ⟨{ n with deliveryQueue := n.deliveryQueue.dropReceiver subId }, [], []⟩

/-! ## What an arrival changes -/

/-- The retry processor and the IDs of subscriptions are none of it. -/
theorem handleIncomingMessage_parts (n : DataNode) (toVec : DeliveryStatusMessage → Option Bytes)
    (fromSlice : Bytes → Option DeliveryStatusMessage) (message : Received) (now : Nat) :
    ∃ service waitingMessages deliveryQueue,
      (n.handleIncomingMessage toVec fromSlice message now).node
        = { n with service, waitingMessages, deliveryQueue } ∧
      deliveryQueue.nextSubId = n.deliveryQueue.nextSubId := by
  unfold handleIncomingMessage
  split
  · exact ⟨_, _, _, rfl, rfl⟩
  · unfold handleDeliveryStatusMessage
    split
    · exact ⟨_, _, _, rfl, rfl⟩
    · split
      · exact ⟨_, _, _, rfl, rfl⟩
      · exact ⟨_, _, _, rfl, rfl⟩
  · unfold handleApplicationMessage
    split
    · exact ⟨_, _, _, rfl, rfl⟩
    · dsimp only
      split
      · split
        · exact ⟨_, _, _, rfl, rfl⟩
        · exact ⟨_, _, _, rfl, rfl⟩
      · exact ⟨_, _, _, rfl, rfl⟩

/-- What is not for an application here leaves the subscribers alone. -/
theorem handleIncomingMessage_other (n : DataNode)
    (toVec : DeliveryStatusMessage → Option Bytes)
    (fromSlice : Bytes → Option DeliveryStatusMessage) {message : Received} (now : Nat)
    (h : incoming n.service.nodeId message ≠ .application) :
    (n.handleIncomingMessage toVec fromSlice message now).node.deliveryQueue = n.deliveryQueue ∧
      (n.handleIncomingMessage toVec fromSlice message now).handed = [] := by
  unfold handleIncomingMessage
  split
  · exact ⟨rfl, rfl⟩
  · refine ⟨?_, rfl⟩
    unfold handleDeliveryStatusMessage
    split
    · rfl
    · split
      · rfl
      · rfl
  next happlication => exact absurd happlication h

theorem deliveryQueue_application (n : DataNode) (toVec : DeliveryStatusMessage → Option Bytes)
    (message : Received) (h : n.deliveryQueue.subscriberCount ≠ 0) :
    (n.handleApplicationMessage toVec message).node.deliveryQueue
      = (n.deliveryQueue.deliver message).1 := by
  unfold handleApplicationMessage
  rw [if_neg h]
  dsimp only
  split
  · split
    · rfl
    · rfl
  · rfl

/-! ## Who is handed a message -/

theorem handed_application (n : DataNode) (toVec : DeliveryStatusMessage → Option Bytes)
    (message : Received) :
    (n.handleApplicationMessage toVec message).handed = (n.deliveryQueue.deliver message).2 := by
  unfold handleApplicationMessage
  split
  next h => exact (DeliveryQueue.deliver_of_no_subscribers h message).symm
  next h =>
    dsimp only
    split
    · split <;> rfl
    · rfl

/-- **Who is handed a message that arrives:** the subscribers `deliver` finds, if it
is for this node and no status message. Nothing else of the node counts. -/
theorem mem_handed_iff {n : DataNode} {toVec : DeliveryStatusMessage → Option Bytes}
    {fromSlice : Bytes → Option DeliveryStatusMessage} {message : Received} {now : Nat}
    {subId : UInt64} :
    subId ∈ (n.handleIncomingMessage toVec fromSlice message now).handed ↔
      incoming n.service.nodeId message = .application ∧
        ∃ subscriber, n.deliveryQueue.subscribers.lookup subId = some subscriber ∧
          subscriber.filter.admits message = true ∧ subscriber.isOpen = true := by
  unfold handleIncomingMessage
  cases h : incoming n.service.nodeId message with
  | notForUs => simp
  | deliveryStatus => simp
  | application =>
    dsimp only
    rw [handed_application, DeliveryQueue.mem_deliver_iff]
    exact (and_iff_right rfl).symm

/-- Nobody is handed a message twice when it arrives once. -/
theorem handed_nodup (n : DataNode) (toVec : DeliveryStatusMessage → Option Bytes)
    (fromSlice : Bytes → Option DeliveryStatusMessage) (message : Received) (now : Nat) :
    (n.handleIncomingMessage toVec fromSlice message now).handed.Nodup := by
  unfold handleIncomingMessage
  split
  · exact List.nodup_nil
  · exact List.nodup_nil
  · rw [handed_application]
    exact DeliveryQueue.deliver_nodup _ _

/-- The node after a sequence of events. -/
abbrev after (toVec : DeliveryStatusMessage → Option Bytes)
    (fromSlice : Bytes → Option DeliveryStatusMessage) (n : DataNode) (events : List NodeEvent) :
    DataNode :=
  events.foldl (fun n event => (n.step toVec fromSlice event).node) n

end DataNode

open DataNode

/-! ## The status message of an acknowledgment -/

/-- The status message that an acknowledgment is reported with. -/
def Ack.report (ack : Ack) : DeliveryStatusMessage :=
  { originalMsgId := ack.msgId, status := ack.status.code, statusMessage := ack.statusMessage }

/-- The node has the status of the acknowledgment for the message, and will not
send it again. -/
def Acknowledged (n : DataNode) (ack : Ack) : Prop :=
  (n.messageTracker.lookup ack.msgId).map MessageRecord.status = some ack.status ∧
    n.pendingMessages.lookup ack.msgId = none

instance (n : DataNode) (ack : Ack) : Decidable (Acknowledged n ack) :=
  inferInstanceAs (Decidable (_ ∧ _))

/-- Neither status of an acknowledgment has a code the receiver of the status
message knows. -/
theorem statusOfCode_ack (ack : Ack) : statusOfCode ack.status.code = none := by
  unfold Ack.status
  cases ack.success <;> decide

/-- A status message with an unknown code changes nothing. -/
theorem ignored_of_unknown {fromSlice : Bytes → Option DeliveryStatusMessage} {n : DataNode}
    {message : Received} {deliveryStatus : DeliveryStatusMessage}
    (hfrom : fromSlice message.payload = some deliveryStatus)
    (hcode : statusOfCode deliveryStatus.status = none) (now : Nat) :
    n.handleDeliveryStatusMessage fromSlice message now = n := by
  unfold handleDeliveryStatusMessage
  rw [hfrom]
  dsimp only
  rw [hcode]

/-- The status message is recognized as one where it arrives, and ignored. -/
theorem report_ignored {toVec : DeliveryStatusMessage → Option Bytes}
    {fromSlice : Bytes → Option DeliveryStatusMessage} {a : DataNode} (svc : MeshDataService)
    {ack : Ack} {bytes : Bytes} (hto : toVec ack.report = some bytes)
    (hfrom : fromSlice bytes = some ack.report) (hsrc : ack.srcNode = a.service.nodeId)
    (hne : a.service.nodeId ≠ svc.nodeId) (now : Nat) :
    ∃ m, svc.deliveryStatusToSource toVec ack.srcNode ack.msgId ack.status ack.statusMessage
        = some m ∧
      (a.handleIncomingMessage toVec fromSlice (receivedOf m.delivered) now).node = a := by
  unfold MeshDataService.deliveryStatusToSource
  rw [if_neg (by rw [hsrc]; exact hne)]
  refine ⟨_, rfl, ?_⟩
  have hpayload : (toVec { originalMsgId := ack.msgId, status := ack.status.code
                           statusMessage := ack.statusMessage }).getD [] = bytes :=
    congrArg (fun o : Option Bytes => o.getD []) hto
  rw [hpayload]
  unfold handleIncomingMessage
  rw [← hsrc, show incoming ack.srcNode _ = .deliveryStatus from
    incoming_eq_deliveryStatus.mpr (AList.lookup_insert _)]
  exact ignored_of_unknown hfrom (statusOfCode_ack ack) now

/-- **The acknowledgment does not reach the sender.** Node B reports every
acknowledgment of a message of another node A. With a serializer that reads back
what it wrote, A has the status of the acknowledgment and has dropped the message
after it has processed the report if and only if it had before. -/
theorem ack_reaches_sender_iff {toVec : DeliveryStatusMessage → Option Bytes}
    {fromSlice : Bytes → Option DeliveryStatusMessage} (a b : DataNode) (ack : Ack)
    (nowA nowB : Nat) {bytes : Bytes} (hto : toVec ack.report = some bytes)
    (hfrom : fromSlice bytes = some ack.report) (hsrc : ack.srcNode = a.service.nodeId)
    (hne : a.service.nodeId ≠ b.service.nodeId) :
    ∃ m, (b.service.ackMessage toVec ack nowB).2 = some m ∧
      (Acknowledged (a.handleIncomingMessage toVec fromSlice (receivedOf m.delivered) nowA).node ack
        ↔ Acknowledged a ack) := by
  obtain ⟨m, hm, hignored⟩ := report_ignored { b.service with
    ackedMessages := b.service.ackedMessages.insert (ack.srcNode, ack.msgId) ()
    messageTracker := b.service.messageTracker.updateStatus ack.msgId ack.status
      ack.statusMessage nowB } hto hfrom hsrc hne nowA
  exact ⟨m, hm, by rw [hignored]⟩

/-- Node 2, fresh, with a client that has subscribed to everything. -/
def subscribedNode : DataNode :=
  { service := { nodeId := 2, nextId := 1, ackedMessages := ∅, messageTracker := ∅
                 topologyDb := none, messageQueue := { pendingMessages := ∅ } }
    config := .default
    waitingMessages := ∅
    retryPass := { tick := 0, todo := [], inHand := none }
    deliveryQueue := (DeliveryQueue.new.subscribe (.ofRequest ⟨0, 0, 0⟩)).1 }

/-- Node 1, fresh. -/
def freshNode : DataNode := { subscribedNode with service := newService, deliveryQueue := .new }

/-- Node 1 after it has sent message 1 to node 2, to be acknowledged. -/
def awaitingNode : DataNode :=
  (freshNode.step (fun _ => none) (fun _ => none) (.send { requestWith [] 0 with
    dstNode := 2, requireAck := true } 0 true)).node

/-- The acknowledgment of it. -/
def firstAck : Ack := { srcNode := 1, msgId := 1, success := true, message := "" }

/-- JSON text of a status message, for texts that need no escapes. -/
def jsonStatus (d : DeliveryStatusMessage) : Option Bytes :=
  some (asBytes ("\x7b\"original_msg_id\":" ++ toString d.originalMsgId ++ ",\"status\":"
    ++ toString d.status ++ ",\"status_message\":\"" ++ d.statusMessage ++ "\"\x7d"))

/-- A reader of the report of the first acknowledgment. -/
def readFirst (bytes : Bytes) : Option DeliveryStatusMessage :=
  if bytes = (jsonStatus firstAck.report).getD [] then some firstAck.report else none

/-- A node at which a client has acknowledged the message itself has the status
before and after the report. -/
theorem ack_reaches_sender_known :
    let a := { freshNode with service := { newService with
      messageTracker := newService.messageTracker.trackMessage 1 .ackSuccess "" true 0 } }
    ∃ m, (subscribedNode.service.ackMessage jsonStatus firstAck 0).2 = some m ∧
      Acknowledged (a.handleIncomingMessage jsonStatus readFirst (receivedOf m.delivered) 0).node
        firstAck := by
  intro a
  obtain ⟨m, hm, hiff⟩ := @ack_reaches_sender_iff jsonStatus readFirst a
    subscribedNode firstAck 0 0 _ rfl (if_pos rfl) rfl (by decide)
  exact ⟨m, hm, hiff.mpr (by decide +kernel)⟩

/-- After the report the message is still pending, and its status is `Queued`. -/
theorem ack_not_seen_by_sender :
    ∃ m, (subscribedNode.service.ackMessage jsonStatus firstAck 0).2 = some m ∧
      let a' := (awaitingNode.handleIncomingMessage jsonStatus readFirst
        (receivedOf m.delivered) 0).node
      (a'.messageTracker.lookup 1).map MessageRecord.status = some .queued ∧
      (a'.pendingMessages.lookup 1).isSome = true ∧ ¬ Acknowledged a' firstAck := by
  refine ⟨_, rfl, ?_⟩
  decide +kernel

/-! ## Messages that come again -/

/-- **An acknowledged message that comes again is handed to nobody exactly if
nobody would be handed it anyway.** At any node, after any acknowledgment and any
events following it, a message with the acknowledged source and ID is handed to
nobody if and only if it is not a message of an application for this node, or no
subscriber with an open stream has a filter it passes. -/
theorem retry_unseen_iff (toVec : DeliveryStatusMessage → Option Bytes)
    (fromSlice : Bytes → Option DeliveryStatusMessage) (n : DataNode) (ack : Ack) (now : Nat)
    (events : List NodeEvent) (message : Received) (now' : Nat) :
    let n' := n.after toVec fromSlice (.status (.ackMessage ack now) :: events)
    let again := { message with srcNode := ack.srcNode, msgId := ack.msgId }
    (n'.handleIncomingMessage toVec fromSlice again now').handed = [] ↔
      incoming n'.service.nodeId again ≠ .application ∨
        ∀ subId subscriber, n'.deliveryQueue.subscribers.lookup subId = some subscriber →
          ¬ (subscriber.filter.admits again = true ∧ subscriber.isOpen = true) := by
  intro n' again
  rw [List.eq_nil_iff_forall_not_mem]
  simp only [mem_handed_iff]
  constructor
  · intro h
    by_cases happ : incoming n'.service.nodeId again = .application
    · refine Or.inr fun subId subscriber hlookup hboth => ?_
      exact h subId ⟨happ, subscriber, hlookup, hboth⟩
    · exact Or.inl happ
  · rintro (happ | hnone) subId ⟨happ', subscriber, hlookup, hboth⟩
    · exact happ happ'
    · exact hnone subId subscriber hlookup hboth

/-- The client acknowledges message 5 of node 1. The node notes it, and hands the
message to the client when it comes again. -/
theorem retry_seen_after_ack :
    let message : Received := { srcNode := 1, dstNode := 2, msgId := 5, corrId := 0, headers := []
                                payload := [7], requireAck := true }
    let n := subscribedNode.after (fun _ => none) (fun _ => none)
      [.status (.incoming message 0), .status (.ackMessage ⟨1, 5, true, ""⟩ 1)]
    n.service.ackedMessages.lookup (1, 5) = some () ∧
    (n.handleIncomingMessage (fun _ => none) (fun _ => none) message 2).handed = [1] := by
  decide +kernel

end MeshCore.Grpc
