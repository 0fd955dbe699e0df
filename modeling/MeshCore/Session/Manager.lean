import MeshCore.Session.Messages
import MeshCore.Routing.Table

/-!
# The session manager (`mesh-session/src/manager.rs`)

The manager stands between the sessions, the routing table and the gRPC service.
It keeps the channel of each session under the remote node's ID, routes outbound
messages, and handles the events the sessions emit. What it sends is modelled as
the list of its outputs.

Mirroring notes:
- A channel is the number of its session. The addresses in events and in
  `SessionInfo` are left out: only the task that drops sessions reads them.
- All channels of the manager are set: `main` sets them before it runs the
  manager. A send into a channel whose receiver is gone is an output like any
  other; it is lost there.
-/

namespace MeshCore.Session

open MeshCore.Lib MeshCore.Wire
open MeshCore.Topology (NodeId TopologyUpdate)
open MeshCore.Routing

/-- `mpsc::UnboundedSender<OutboundMessage>`, by the session that receives. -/
abbrev Channel := Nat

/-- `TopologyRequest`. -/
structure TopologyRequest where
  requestingNode : NodeId
  targetNode : Option NodeId
  requestId : UInt64
  deriving Repr, DecidableEq

/-- `SessionEvent`. -/
inductive SessionEvent where
  | connected (remoteNodeId : NodeId)
  | disconnected (remoteNodeId : Option NodeId)
  | pong (remoteNodeId : NodeId) (rtt : Nat)
  | messageReceived (message : InboundMessage)
  | topologyUpdate (update : TopologyUpdate)
  | topologyRequest (request : TopologyRequest)
  deriving DecidableEq

/-! ## The global registry of channels -/

/-- `GLOBAL_SESSION_REGISTRY`. -/
abbrev Registry := HashMap NodeId Channel

/-- `register_global_session_channel`. -/
def Registry.register (r : Registry) (nodeId : NodeId) (messageTx : Channel) : Registry :=
  r.insert nodeId messageTx

/-- `unregister_global_session_channel`: the entry goes, whoever registered it. -/
def Registry.unregister (r : Registry) (nodeId : NodeId) : Registry := r.erase nodeId

theorem Registry.lookup_register (r : Registry) (nodeId nodeId' : NodeId) (messageTx : Channel) :
    (r.register nodeId messageTx).lookup nodeId'
      = if nodeId' = nodeId then some messageTx else r.lookup nodeId' :=
  HashMap.lookup_insert_ite r nodeId nodeId' messageTx

theorem Registry.lookup_unregister (r : Registry) (nodeId nodeId' : NodeId) :
    (r.unregister nodeId).lookup nodeId' = if nodeId' = nodeId then none else r.lookup nodeId' := by
  unfold Registry.unregister
  by_cases h : nodeId' = nodeId
  · rw [if_pos h, h, AList.lookup_erase]
  · rw [if_neg h, AList.lookup_erase_ne h]

/-! ## Routing feedback -/

/-- `RoutingFeedback`. -/
structure RoutingFeedback where
  msgId : UInt64
  decision : RoutingDecision
  message : String
  deriving DecidableEq

/-- `send_routing_feedback`: what is sent. -/
def routingFeedback (msgId : UInt64) (decision : RoutingDecision) : RoutingFeedback :=
  { msgId, decision
    message := match decision with
      | .forward ecmp => "Message forwarded to next hop node " ++ toString ecmp.nextHop.nodeId
      | .local => "Message delivered locally"
      | .drop reason => "Message dropped: " ++ reason.text }

/-! ## The manager -/

/-- What the manager sends. -/
inductive ManagerOutput where
  | send (messageTx : Channel) (message : OutboundMessage)
  | deliver (message : InboundMessage)
  | feedback (feedback : RoutingFeedback)
  | receivedTopology (update : TopologyUpdate)
  deriving DecidableEq

/-- `SessionManager`. -/
structure SessionManager where
  localNodeId : NodeId
  routingTable : RoutingTable
  sessions : HashMap NodeId Channel

namespace SessionManager

/-- The routing decision for an outbound message. -/
def decision (mgr : SessionManager) (message : OutboundMessage) : RoutingDecision :=
  mgr.routingTable.decide
    { srcNode := mgr.localNodeId, dstNode := message.dstNode, ttl := 64, corrId := message.corrId }

/-- What the decision leads to. -/
def route (mgr : SessionManager) (message : OutboundMessage) : List ManagerOutput :=
  match mgr.decision message with
  | .forward ecmp =>
    match mgr.sessions.lookup ecmp.nextHop.nodeId with
    | some messageTx => [.send messageTx message]
    | none => []
  | .local => [.deliver message.delivered]
  | .drop _ => []

/-- `handle_outbound_message`. -/
def handleOutboundMessage (mgr : SessionManager) (message : OutboundMessage) :
    List ManagerOutput :=
  if message.dstNode = mgr.localNodeId then [.deliver message.delivered]
  else
    -- feedback only for a message that has an ID
    (message.msgId.map fun msgId =>
        ManagerOutput.feedback (routingFeedback msgId (mgr.decision message))).toList ++
      mgr.route message

/-- `handle_session_event`. -/
def handleSessionEvent (mgr : SessionManager) (registry : Registry) :
    SessionEvent → SessionManager × List ManagerOutput
  | .connected remoteNodeId =>
    match registry.lookup remoteNodeId with
    | some messageTx => ({ mgr with sessions := mgr.sessions.insert remoteNodeId messageTx }, [])
    | none => (mgr, [])
  | .disconnected (some nodeId) => ({ mgr with sessions := mgr.sessions.erase nodeId }, [])
  | .disconnected none => (mgr, [])
  | .pong _ _ => (mgr, [])
  | .messageReceived message =>
    (mgr, if message.dstNode = mgr.localNodeId then [.deliver message]
      else mgr.handleOutboundMessage message.forwarded)
  | .topologyUpdate update => (mgr, [.receivedTopology update])
  | .topologyRequest _ => (mgr, [])

/-- **What the manager sends for a message that arrived:** it delivers it, or gives
feedback and follows the routing decision. -/
theorem outputs_messageReceived (mgr : SessionManager) (registry : Registry)
    (message : InboundMessage) :
    (mgr.handleSessionEvent registry (.messageReceived message)).2
      = if message.dstNode = mgr.localNodeId then [.deliver message]
        else
          (message.msgId.map fun msgId =>
            ManagerOutput.feedback
              (routingFeedback msgId (mgr.decision message.forwarded))).toList ++
            mgr.route message.forwarded := by
  unfold handleSessionEvent
  dsimp only
  split
  next => rfl
  next hlocal =>
    unfold handleOutboundMessage
    exact if_neg hlocal

end SessionManager

end MeshCore.Session
