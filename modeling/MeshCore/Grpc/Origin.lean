import MeshCore.Grpc.Data

/-!
# Whose message a status update is about

Message IDs are counted from 1 at every node, so IDs of different nodes coincide.
The set of acknowledged messages has the origin in its key; the tracker, which
holds the node's own messages, has the bare ID. Two paths reach it with IDs of
other nodes' messages: `ack_message`, which a client calls for a message it
received, and the routing feedback the session manager sends for every message it
has to forward.

`foreign_event_unchanged_iff` says exactly when such an event leaves the tracker
alone: when it asks for no update, or the node has no message of its own with that
ID (or one whose record says the same already).
-/

namespace MeshCore.Grpc

open MeshCore.Lib MeshCore.Wire MeshCore.Session
open MeshCore.Topology (NodeId)
open MeshCore.Routing

/-- An event about a message that another node originated. -/
inductive ForeignEvent (nodeId : NodeId) where
  | ack (ack : Ack) (hforeign : ack.srcNode ≠ nodeId)
  /-- The session manager handles a message that arrived. -/
  | forward (message : InboundMessage) (hforeign : message.srcNode ≠ nodeId)

/-- The tracker after the routing feedback among the manager's outputs. -/
def trackerAfterFeedback (messageTracker : MessageTracker) (outputs : List ManagerOutput)
    (now : Nat) : MessageTracker :=
  outputs.foldl
    (fun messageTracker output =>
      match output with
      | .feedback feedback => handleRoutingFeedback messageTracker feedback now
      | _ => messageTracker)
    messageTracker

/-- The tracker after an event. -/
def trackerAfter (svc : MeshDataService) (mgr : SessionManager)
    (toVec : DeliveryStatusMessage → Option Bytes) (now : Nat) :
    ForeignEvent svc.nodeId → MessageTracker
  | .ack ack _ => (svc.ackMessage toVec ack now).1.messageTracker
  | .forward message _ =>
    trackerAfterFeedback svc.messageTracker
      (mgr.handleSessionEvent ∅ (.messageReceived message)).2 now

/-- The tracker has no record of this message, or one that says all this. -/
def Says (messageTracker : MessageTracker) (msgId : UInt64) (status : MessageStatus)
    (statusMessage : String) (now : Nat) : Prop :=
  ∀ record, messageTracker.lookup msgId = some record →
    record.status = status ∧ record.statusMessage = statusMessage ∧
      record.timestamp = now / nanosPerSec

/-- The event asks for no update of a record, or for one that changes nothing. A
message is only reported when it has an ID, is for another node and was dropped. -/
def LeavesAlone (svc : MeshDataService) (mgr : SessionManager) (now : Nat) :
    ForeignEvent svc.nodeId → Prop
  | .ack ack _ => Says svc.messageTracker ack.msgId ack.status ack.statusMessage now
  | .forward message _ => ∀ msgId reason, message.dstNode ≠ mgr.localNodeId →
    message.msgId = some msgId → mgr.decision message.forwarded = .drop reason →
    Says svc.messageTracker msgId (statusOfDrop reason).1 (statusOfDrop reason).2 now

/-- What the manager's outputs for a forwarded message do to the tracker. -/
theorem trackerAfterFeedback_eq (messageTracker : MessageTracker) (mgr : SessionManager)
    (message : InboundMessage) (now : Nat) :
    trackerAfterFeedback messageTracker
        (mgr.handleSessionEvent ∅ (.messageReceived message)).2 now
      = if message.dstNode = mgr.localNodeId then messageTracker
        else
          match message.msgId, mgr.decision message.forwarded with
          | some msgId, .drop reason =>
            messageTracker.updateStatus msgId (statusOfDrop reason).1 (statusOfDrop reason).2 now
          | _, _ => messageTracker := by
  rw [SessionManager.outputs_messageReceived]
  by_cases hlocal : message.dstNode = mgr.localNodeId
  · rw [if_pos hlocal, if_pos hlocal]
    rfl
  · rw [if_neg hlocal, if_neg hlocal]
    -- only the feedback counts, and it comes first
    have hroute : ∀ t : MessageTracker,
        trackerAfterFeedback t (mgr.route message.forwarded) now = t := by
      intro t
      unfold SessionManager.route
      split
      next => split <;> rfl
      next => rfl
      next => rfl
    unfold trackerAfterFeedback at hroute ⊢
    rw [List.foldl_append, hroute]
    cases message.msgId with
    | none => rfl
    | some msgId =>
      show handleRoutingFeedback messageTracker _ now = _
      unfold handleRoutingFeedback routingFeedback
      dsimp only
      cases mgr.decision message.forwarded with
      | forward ecmp => rfl
      | «local» => rfl
      | drop reason => rfl

/-- **When an event about another node's message leaves the tracker alone.** -/
theorem foreign_event_unchanged_iff (svc : MeshDataService) (mgr : SessionManager)
    (toVec : DeliveryStatusMessage → Option Bytes) (now : Nat) (event : ForeignEvent svc.nodeId) :
    (∀ msgId, (trackerAfter svc mgr toVec now event).lookup msgId
      = svc.messageTracker.lookup msgId) ↔ LeavesAlone svc mgr now event := by
  cases event with
  | ack ack hforeign =>
    exact svc.messageTracker.updateStatus_unchanged_iff ack.msgId ack.status ack.statusMessage now
  | forward message hforeign =>
    unfold trackerAfter LeavesAlone
    dsimp only
    rw [trackerAfterFeedback_eq]
    split
    next hlocal => exact iff_of_true (fun _ => rfl) fun _ _ hne => absurd hlocal hne
    next hlocal =>
      split
      next msgId reason hid hdrop =>
        refine (svc.messageTracker.updateStatus_unchanged_iff _ _ _ _).trans ?_
        constructor
        · intro hsays msgId' reason' _ hid' hdrop'
          rw [hid, Option.some.injEq] at hid'
          rw [hdrop, RoutingDecision.drop.injEq] at hdrop'
          rw [← hid', ← hdrop']
          exact hsays
        · intro hsays
          exact hsays msgId reason hlocal hid hdrop
      next hno =>
        refine iff_of_true (fun _ => rfl) ?_
        intro msgId reason _ hid hdrop
        exact absurd hdrop (hno msgId reason hid)

/-- A tracker with one message of its own, with ID 1. -/
def oneMessage : MeshDataService :=
  { nodeId := 1, nextId := 2, ackedMessages := ∅, topologyDb := none
    messageTracker := MessageTracker.trackMessage ∅ 1 .queued "Message queued for delivery" false 0
    messageQueue := { pendingMessages := ∅ } }

/-- A client of node 1 acknowledges message 1 of node 2, and message 1 of node 2
for an unknown node is dropped: each changes the record of node 1's own message. -/
theorem foreign_event_changes_record :
    (trackerAfter oneMessage ⟨1, RoutingTable.new 1 fun _ _ _ => 0, ∅⟩ (fun _ => none) 0
        (.ack ⟨2, 1, true, ""⟩ (by decide))).lookup 1
      ≠ oneMessage.messageTracker.lookup 1 ∧
    (trackerAfter oneMessage ⟨1, RoutingTable.new 1 fun _ _ _ => 0, ∅⟩ (fun _ => none) 0
        (.forward ⟨2, 9, [], ∅, 0, some 1, false⟩ (by decide))).lookup 1
      ≠ oneMessage.messageTracker.lookup 1 := by
  refine ⟨?_, ?_⟩
  · decide +kernel
  · decide +kernel

end MeshCore.Grpc
