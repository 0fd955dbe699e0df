import MeshCore.Grpc.Tracker
import MeshCore.Session.Manager

/-!
# The data service (`mesh-grpc/src/data.rs`)

Clients of a node send messages through `MeshDataService::send`, which checks the
request, gives the message an ID, tracks it and hands it to the message queue;
messages that arrive for the node come in through `handle_incoming_message`,
which first tells delivery status messages from the messages of applications;
and `ack_message` and the routing feedback of the session manager update the
tracker.

Mirroring notes:
- `send` is modelled up to the point where it responds or begins to wait for a
  status. What it puts on the outbound channel is a list.
- Whether the outbound channel is open is an argument; so is the time.
- `serde_json::to_vec` is a parameter. Fields of requests that the service does
  not read are left out, and so is the streaming of status updates.
-/

namespace MeshCore.Grpc

open MeshCore.Lib MeshCore.Wire MeshCore.Session
open MeshCore.Topology (NodeId TopologyDatabase)
open MeshCore.Routing

/-! ## Requests and messages (`data.proto`) -/

/-- `Header`. -/
structure Header where
  key : String
  value : Bytes
  deriving Repr, DecidableEq

/-- `SendMode`. -/
inductive SendMode where
  | fireAndForget
  | waitForDelivery
  | waitForAck
  deriving Repr, DecidableEq

/-- `SendRequest`. -/
structure SendRequest where
  dstNode : NodeId
  headers : List Header
  payload : Bytes
  corrId : UInt64
  requireAck : Bool
  mode : SendMode
  timeoutSeconds : UInt32
  deriving Repr, DecidableEq

/-- `SendResponse`. -/
structure SendResponse where
  msgId : UInt64
  status : MessageStatus
  statusMessage : String
  requireAck : Bool
  deriving Repr, DecidableEq

/-- `Received`. -/
structure Received where
  srcNode : NodeId
  dstNode : NodeId
  msgId : UInt64
  corrId : UInt64
  headers : List Header
  payload : Bytes
  requireAck : Bool
  deriving Repr, DecidableEq

/-- `Ack`. -/
structure Ack where
  srcNode : NodeId
  msgId : UInt64
  success : Bool
  message : String
  deriving Repr, DecidableEq

/-- The status an acknowledgment stands for. -/
def Ack.status (ack : Ack) : MessageStatus :=
  if ack.success then .ackSuccess else .ackFailure

/-- Its text: the client's own only for a failure. -/
def Ack.statusMessage (ack : Ack) : String :=
  if ack.success then "Message acknowledged successfully"
  else if ack.message = "" then "Message acknowledgment failed"
  else ack.message

/-- The `tonic::Status` of a rejected request. -/
inductive Status where
  | invalidArgument (message : String)
  | internal (message : String)
  deriving Repr, DecidableEq

/-- `DeliveryStatusMessage`. -/
structure DeliveryStatusMessage where
  originalMsgId : UInt64
  status : Int
  statusMessage : String
  deriving Repr, DecidableEq

/-- What `main` makes of a message for this node. -/
def receivedOf (m : InboundMessage) : Received :=
  { srcNode := m.srcNode, dstNode := m.dstNode, msgId := m.msgId.getD 0, corrId := m.corrId
    headers := m.headers.entries.map fun e => { key := e.1, value := e.2 }
    payload := m.payload, requireAck := m.requireAck }

/-! ## The message queue (`message_queue.rs`) -/

/-- `QueuedMessage`. -/
structure QueuedMessage where
  message : OutboundMessage
  retryCount : UInt32
  queuedAt : Nat
  nextRetryAt : Nat
  sendMode : SendMode
  timeoutSeconds : UInt32

/-- `MessageQueue`: the messages pending delivery. -/
structure MessageQueue where
  pendingMessages : HashMap UInt64 QueuedMessage

/-- `queue_message`. `isOpen` says whether the outbound channel has a receiver;
if it has, the message is put on it. -/
def MessageQueue.queueMessage (q : MessageQueue) (message : OutboundMessage) (sendMode : SendMode)
    (timeoutSeconds : UInt32) (now : Nat) (isOpen : Bool) : Except String MessageQueue :=
  match message.msgId with
  | none => .error "Message must have an ID"
  | some msgId =>
    if isOpen then
      .ok { q with
        pendingMessages := q.pendingMessages.insert msgId
          { message, retryCount := 0, queuedAt := now, nextRetryAt := now, sendMode,
            timeoutSeconds } }
    else .error "Failed to send message: channel closed"

/-! ## The service -/

/-- `MeshDataService`. -/
structure MeshDataService where
  nodeId : NodeId
  /-- `MessageIdGenerator::next_id`. -/
  nextId : UInt64
  ackedMessages : HashMap (NodeId × UInt64) Unit
  messageTracker : MessageTracker
  topologyDb : Option TopologyDatabase
  messageQueue : MessageQueue

/-- What `send` comes to: a response at once, or the wait for one of the statuses. -/
inductive SendOutcome where
  | responds (response : SendResponse)
  | waits (msgId : UInt64) (targetStatuses : List MessageStatus) (timeoutSecs : Nat)
  deriving Repr, DecidableEq

/-- What a call of `send` leaves: the service, the outcome, and the messages it put
on the outbound channel. -/
structure Sent where
  service : MeshDataService
  outcome : Except Status SendOutcome
  outbound : List OutboundMessage

/-- The message `send` makes of a request. Of several headers with one key the
last one counts. -/
def SendRequest.outbound (req : SendRequest) (nodeId : NodeId) (msgId : UInt64) :
    OutboundMessage :=
  { srcNode := nodeId, dstNode := req.dstNode, payload := req.payload
    headers := HashMap.insertAll Header.key Header.value req.headers ∅
    corrId := req.corrId, msgId := some msgId, requireAck := req.requireAck }

/-- How `send` goes on after the message is queued. -/
def SendRequest.outcome (req : SendRequest) (msgId : UInt64) : SendOutcome :=
  match req.mode with
  | .fireAndForget =>
    .responds { msgId, status := .queued, statusMessage := "Message queued for delivery"
                requireAck := req.requireAck }
  | .waitForDelivery =>
    .waits msgId [.delivered, .pendingClient, .undeliverable]
      (if req.timeoutSeconds > 0 then req.timeoutSeconds.toNat else 300)
  | .waitForAck =>
    .waits msgId [.ackSuccess, .ackFailure, .undeliverable]
      (if req.timeoutSeconds > 0 then req.timeoutSeconds.toNat else 600)

namespace MeshDataService

/-- `is_node_known`. -/
def isNodeKnown (svc : MeshDataService) (dstNode : NodeId) : Bool :=
  if dstNode = svc.nodeId then true
  else
    match svc.topologyDb with
    | some db => (db.nodes.lookup dstNode).isSome
    | none => dstNode ≠ 0

/-- `send`. -/
def send (svc : MeshDataService) (req : SendRequest) (now : Nat) (isOpen : Bool) : Sent :=
  if req.dstNode = 0 then ⟨svc, .error (.invalidArgument "dst_node cannot be 0"), []⟩
  else if req.payload = [] then ⟨svc, .error (.invalidArgument "payload cannot be empty"), []⟩
  else
    let msgId := svc.nextId
    if svc.isNodeKnown req.dstNode = false then
      let statusMessage :=
        "Destination node " ++ toString req.dstNode ++ " is not known in the mesh topology"
      ⟨{ svc with
          nextId := svc.nextId + 1
          messageTracker := svc.messageTracker.trackMessage msgId .undeliverable statusMessage
            req.requireAck now },
        .ok (.responds { msgId, status := .undeliverable, statusMessage
                         requireAck := req.requireAck }), []⟩
    else
      let svc := { svc with
        nextId := svc.nextId + 1
        messageTracker := svc.messageTracker.trackMessage msgId .queued
          "Message queued for delivery" req.requireAck now }
      let message := req.outbound svc.nodeId msgId
      if req.mode = .waitForAck ∧ req.requireAck = false then
        ⟨svc, .error (.invalidArgument "Cannot wait for ack when require_ack is false"), []⟩
      else
        match svc.messageQueue.queueMessage message req.mode req.timeoutSeconds now isOpen with
        | .error e =>
          ⟨{ svc with
              messageTracker := svc.messageTracker.updateStatus msgId .undeliverable
                ("Failed to queue message: " ++ e) now },
            .error (.internal "Failed to queue message"), []⟩
        | .ok messageQueue => ⟨{ svc with messageQueue }, .ok (req.outcome msgId), [message]⟩

/-- `send_delivery_status_to_source`: the message it sends. -/
def deliveryStatusToSource (svc : MeshDataService)
    (toVec : DeliveryStatusMessage → Option Bytes) (srcNode : NodeId) (msgId : UInt64)
    (status : MessageStatus) (statusMessage : String) : Option OutboundMessage :=
  if srcNode = svc.nodeId then none
  else
    some
      { srcNode := svc.nodeId, dstNode := srcNode
        payload :=
          (toVec { originalMsgId := msgId, status := status.code, statusMessage }).getD []
        headers := AList.insert "message_type" (asBytes "delivery_status") ∅
        corrId := 0, msgId := none, requireAck := false }

/-- `ack_message`, with the status message it sends. -/
def ackMessage (svc : MeshDataService) (toVec : DeliveryStatusMessage → Option Bytes) (ack : Ack)
    (now : Nat) : MeshDataService × Option OutboundMessage :=
  let svc := { svc with
    ackedMessages := svc.ackedMessages.insert (ack.srcNode, ack.msgId) ()
    messageTracker := svc.messageTracker.updateStatus ack.msgId ack.status ack.statusMessage now }
  (svc, svc.deliveryStatusToSource toVec ack.srcNode ack.msgId ack.status ack.statusMessage)

end MeshDataService

/-- The status and the text for a message that was dropped. -/
def statusOfDrop : DropReason → MessageStatus × String
  | .noRoute => (.pendingNode, "No route to destination node - node may be offline")
  | .invalidDestination => (.undeliverable, "Invalid destination node")
  | .ttlExpired => (.undeliverable, "Message TTL expired during routing")
  | .routingLoop => (.undeliverable, "Routing loop detected")
  | .adminProhibited => (.undeliverable, "Message delivery administratively prohibited")

/-- `MeshDataService::handle_routing_feedback`. -/
def handleRoutingFeedback (messageTracker : MessageTracker) (feedback : RoutingFeedback)
    (now : Nat) : MessageTracker :=
  match feedback.decision with
  | .forward _ => messageTracker
  | .local => messageTracker
  | .drop reason =>
    let (status, message) := statusOfDrop reason
    messageTracker.updateStatus feedback.msgId status message now

/-- What `handle_incoming_message` takes a message for. -/
inductive Incoming where
  | notForUs
  | deliveryStatus
  | application
  deriving Repr, DecidableEq

/-- The first two checks of `handle_incoming_message`. -/
def incoming (nodeId : NodeId) (message : Received) : Incoming :=
  if message.dstNode ≠ nodeId then .notForUs
  else if message.headers.any fun header =>
      header.key == "message_type" && header.value == asBytes "delivery_status" then
    .deliveryStatus
  else .application

/-! ## The ways of `send` -/

namespace SendRequest

/-- A request that fails validation. -/
def Invalid (req : SendRequest) : Prop := req.dstNode = 0 ∨ req.payload = []

/-- A request that waits for an acknowledgment and does not ask for one. -/
def Unackable (req : SendRequest) : Prop := req.mode = .waitForAck ∧ req.requireAck = false

instance (req : SendRequest) : Decidable req.Invalid :=
  inferInstanceAs (Decidable (_ ∨ _))

instance (req : SendRequest) : Decidable req.Unackable :=
  inferInstanceAs (Decidable (_ ∧ _))

end SendRequest

namespace MeshDataService

variable {svc : MeshDataService} {req : SendRequest} {now : Nat} {isOpen : Bool}

/-- The service after it gave out an ID and tracked the message. -/
def tracked (svc : MeshDataService) (req : SendRequest) (status : MessageStatus)
    (statusMessage : String) (now : Nat) : MeshDataService :=
  { svc with
    nextId := svc.nextId + 1
    messageTracker := svc.messageTracker.trackMessage svc.nextId status statusMessage
      req.requireAck now }

theorem send_invalid (h : req.Invalid) :
    ∃ text, svc.send req now isOpen = ⟨svc, .error (.invalidArgument text), []⟩ := by
  unfold send
  split
  next => exact ⟨_, rfl⟩
  next hdst =>
    rw [if_pos (h.resolve_left hdst)]
    exact ⟨_, rfl⟩

theorem send_unknown (h : ¬ req.Invalid) (hknown : svc.isNodeKnown req.dstNode = false) :
    ∃ text, svc.send req now isOpen
      = ⟨svc.tracked req .undeliverable text now,
          .ok (.responds ⟨svc.nextId, .undeliverable, text, req.requireAck⟩), []⟩ := by
  unfold send
  rw [if_neg fun hdst => h (.inl hdst), if_neg fun hpayload => h (.inr hpayload)]
  dsimp only
  rw [if_pos hknown]
  exact ⟨_, rfl⟩

/-- A valid request for a known node is tracked as queued, before the check of what it
waits for. -/
theorem send_known (h : ¬ req.Invalid) (hknown : svc.isNodeKnown req.dstNode = true) :
    svc.send req now isOpen
      = if req.Unackable then
          ⟨svc.tracked req .queued "Message queued for delivery" now,
            .error (.invalidArgument "Cannot wait for ack when require_ack is false"), []⟩
        else
          match svc.messageQueue.queueMessage (req.outbound svc.nodeId svc.nextId) req.mode
              req.timeoutSeconds now isOpen with
          | .error e =>
            ⟨{ svc.tracked req .queued "Message queued for delivery" now with
                messageTracker := (svc.tracked req .queued "Message queued for delivery"
                  now).messageTracker.updateStatus svc.nextId .undeliverable
                    ("Failed to queue message: " ++ e) now },
              .error (.internal "Failed to queue message"), []⟩
          | .ok messageQueue =>
            ⟨{ svc.tracked req .queued "Message queued for delivery" now with messageQueue },
              .ok (req.outcome svc.nextId), [req.outbound svc.nodeId svc.nextId]⟩ := by
  unfold send
  rw [if_neg fun hdst => h (.inl hdst), if_neg fun hpayload => h (.inr hpayload)]
  dsimp only
  rw [if_neg (by rw [hknown]; decide)]
  rfl

theorem send_unackable (h : ¬ req.Invalid) (hknown : svc.isNodeKnown req.dstNode = true)
    (hack : req.Unackable) :
    ∃ text, svc.send req now isOpen
      = ⟨svc.tracked req .queued "Message queued for delivery" now,
          .error (.invalidArgument text), []⟩ := by
  rw [send_known h hknown, if_pos hack]
  exact ⟨_, rfl⟩

theorem send_closed (h : ¬ req.Invalid) (hknown : svc.isNodeKnown req.dstNode = true)
    (hack : ¬ req.Unackable) :
    ∃ text, svc.send req now false
      = ⟨{ svc.tracked req .queued "Message queued for delivery" now with
          messageTracker := (svc.tracked req .queued "Message queued for delivery"
            now).messageTracker.updateStatus svc.nextId .undeliverable text now },
          .error (.internal "Failed to queue message"), []⟩ := by
  rw [send_known h hknown, if_neg hack]
  exact ⟨_, rfl⟩

theorem send_accepted (h : ¬ req.Invalid) (hknown : svc.isNodeKnown req.dstNode = true)
    (hack : ¬ req.Unackable) :
    ∃ queued : QueuedMessage, queued.message = req.outbound svc.nodeId svc.nextId ∧
      svc.send req now true
        = ⟨{ svc.tracked req .queued "Message queued for delivery" now with
            messageQueue := ⟨svc.messageQueue.pendingMessages.insert svc.nextId queued⟩ },
            .ok (req.outcome svc.nextId), [req.outbound svc.nodeId svc.nextId]⟩ := by
  rw [send_known h hknown, if_neg hack]
  exact ⟨_, rfl, rfl⟩

/-- **The ways of `send`.** -/
theorem send_outcomes (svc : MeshDataService) (req : SendRequest) (now : Nat) (isOpen : Bool) :
    (req.Invalid ∧ ∃ text, svc.send req now isOpen = ⟨svc, .error (.invalidArgument text), []⟩) ∨
    (∃ text, svc.send req now isOpen
      = ⟨svc.tracked req .undeliverable text now,
          .ok (.responds ⟨svc.nextId, .undeliverable, text, req.requireAck⟩), []⟩) ∨
    (¬ req.Invalid ∧ req.Unackable ∧ ∃ text, svc.send req now isOpen
      = ⟨svc.tracked req .queued "Message queued for delivery" now,
          .error (.invalidArgument text), []⟩) ∨
    (¬ req.Invalid ∧ ¬ req.Unackable ∧ ∃ text, svc.send req now isOpen
      = ⟨{ svc.tracked req .queued "Message queued for delivery" now with
          messageTracker := (svc.tracked req .queued "Message queued for delivery"
            now).messageTracker.updateStatus svc.nextId .undeliverable text now },
          .error (.internal "Failed to queue message"), []⟩) ∨
    ∃ queued : QueuedMessage, queued.message = req.outbound svc.nodeId svc.nextId ∧
      svc.send req now isOpen
        = ⟨{ svc.tracked req .queued "Message queued for delivery" now with
            messageQueue := ⟨svc.messageQueue.pendingMessages.insert svc.nextId queued⟩ },
            .ok (req.outcome svc.nextId), [req.outbound svc.nodeId svc.nextId]⟩ := by
  by_cases hvalid : req.Invalid
  · exact .inl ⟨hvalid, send_invalid hvalid⟩
  · cases hknown : svc.isNodeKnown req.dstNode with
    | false => exact .inr (.inl (send_unknown hvalid hknown))
    | true =>
      by_cases hack : req.Unackable
      · exact .inr (.inr (.inl ⟨hvalid, hack, send_unackable hvalid hknown hack⟩))
      · cases isOpen with
        | false =>
          exact .inr (.inr (.inr (.inl ⟨hvalid, hack, send_closed hvalid hknown hack⟩)))
        | true => exact .inr (.inr (.inr (.inr (send_accepted hvalid hknown hack))))

end MeshDataService

end MeshCore.Grpc
