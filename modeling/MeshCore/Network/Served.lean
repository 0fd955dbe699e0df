import MeshCore.Network.Mesh
import MeshCore.Grpc.Waiting

/-!
# A mesh and the data services of its nodes (`main.rs`, `server.rs`, `data.rs`)

The gRPC service of a node sends messages into `outbound_tx`, from where its manager takes
them, and what a manager delivers goes through `delivery_tx` to `handle_incoming_message`,
one message after the other. `ServedMesh` closes the circle: every message a mesh is given
comes from the data service of a node, and every message that arrives at a data service
comes from the mesh.

Mirroring notes:
- A piece of work is one event at a service, with the messages it sends, or one step of
  the mesh.
- The routing feedback of a manager may come at any time and say anything.
- Only messages are tracked here: what subscribers do with theirs is left to their
  clients, and what a status stream shows is in `Grpc/Streams.lean`.
-/

namespace MeshCore.Network

open MeshCore.Lib MeshCore.Wire MeshCore.Session MeshCore.Grpc
open MeshCore.Topology (NodeId)

/-- A message that was handed to a subscription at a node. -/
structure Handing where
  node : NodeId
  subId : UInt64
  message : Received
  deriving DecidableEq

/-- A mesh, and the data services of its nodes. -/
structure ServedMesh where
  mesh : Mesh
  node : NodeId → DataNode
  /-- How many of the messages delivered at a node its service has taken. -/
  taken : NodeId → Nat
  /-- The messages that the services have made of their clients' requests. -/
  sent : List OutboundMessage
  handed : List Handing

/-- One piece of work. -/
inductive ServedStep where
  | mesh (a : MeshStep)
  /-- A client of a node calls, or one of its tasks goes on. -/
  | event (n : NodeId) (event : DataNode.NodeEvent)
  /-- A client of a node calls `send_with_status_stream`. -/
  | stream (n : NodeId) (req : SendRequest) (now : Nat) (isOpen : Bool)
  /-- The service of a node takes the next message delivered there. -/
  | take (n : NodeId) (now : Nat)

/-- The messages an event puts on the outbound channel for a client. -/
def sentBy (event : DataNode.NodeEvent) (outbound : List OutboundMessage) : List OutboundMessage :=
  match event with
  | .send _ _ _ => outbound
  | _ => []

/-- A message that is handed to some subscriptions at a node. -/
def handingsOf (n : NodeId) (message : Received) (subIds : List UInt64) : List Handing :=
  subIds.map fun subId => ⟨n, subId, message⟩

namespace ServedMesh

variable (env : SessionEnv) (peer : SessionEnd → NodeId)
variable (toVec : DeliveryStatusMessage → Option Bytes)
variable (fromSlice : Bytes → Option DeliveryStatusMessage)

/-- The messages that an event puts on the outbound channel of a node. -/
def submitAll (mesh : Mesh) (n : NodeId) (outbound : List OutboundMessage) : Mesh :=
  outbound.foldl (fun mesh m => mesh.step env peer (.submit n m)) mesh

theorem submitAll_eq (mesh : Mesh) (n : NodeId) (outbound : List OutboundMessage) :
    submitAll env peer mesh n outbound
      = (outbound.map (MeshStep.submit n)).foldl (Mesh.step env peer) mesh := by
  unfold submitAll
  rw [List.foldl_map]

/-- One step. -/
def step (s : ServedMesh) : ServedStep → ServedMesh
  | .mesh a => { s with mesh := s.mesh.step env peer a }
  | .event n event =>
    let handled := (s.node n).step toVec fromSlice event
    { s with
      mesh := submitAll env peer s.mesh n handled.outbound
      node := Function.update s.node n handled.node
      sent := s.sent ++ sentBy event handled.outbound }
  | .stream n req now isOpen =>
    let streamed := (s.node n).service.sendWithStatusStream req now isOpen
    { s with
      mesh := submitAll env peer s.mesh n streamed.outbound
      node := Function.update s.node n { s.node n with service := streamed.service }
      sent := s.sent ++ streamed.outbound }
  | .take n now =>
    match (s.mesh.delivered n)[s.taken n]? with
    | none => s
    | some i =>
      let message := receivedOf i
      let handled := (s.node n).handleIncomingMessage toVec fromSlice message now
      { s with
        mesh := submitAll env peer s.mesh n handled.outbound
        node := Function.update s.node n handled.node
        taken := Function.update s.taken n (s.taken n + 1)
        handed := s.handed ++ handingsOf n message handled.handed }

/-- With no message to take, nothing is done. -/
theorem step_take_none {s : ServedMesh} {n : NodeId} (now : Nat)
    (h : (s.mesh.delivered n)[s.taken n]? = none) :
    s.step env peer toVec fromSlice (.take n now) = s := by
  unfold step
  dsimp only
  rw [h]

theorem step_take_some {s : ServedMesh} {n : NodeId} {i : InboundMessage} (now : Nat)
    (h : (s.mesh.delivered n)[s.taken n]? = some i) :
    let handled := (s.node n).handleIncomingMessage toVec fromSlice (receivedOf i) now
    s.step env peer toVec fromSlice (.take n now)
      = { s with
          mesh := submitAll env peer s.mesh n handled.outbound
          node := Function.update s.node n handled.node
          taken := Function.update s.taken n (s.taken n + 1)
          handed := s.handed ++ handingsOf n (receivedOf i) handled.handed } := by
  unfold step
  dsimp only
  rw [h]

/-- Nothing has been sent. -/
def start (manager : NodeId → SessionManager) (node : NodeId → DataNode) : ServedMesh where
  mesh := .start manager
  node
  taken _ := 0
  sent := []
  handed := []

/-- The state after some steps. -/
def run (manager : NodeId → SessionManager) (node : NodeId → DataNode)
    (steps : List ServedStep) : ServedMesh :=
  steps.foldl (step env peer toVec fromSlice) (start manager node)

end ServedMesh

/-- Nobody but the data services gives the mesh a message, nothing but the mesh gives them
one, and no client sends one under the header of status messages. The messages that
`broadcast_topology_update` and `create_termination_message` make have neither this header
nor a message ID. -/
def ServedStep.Honest : ServedStep → Prop
  | .mesh (.submit _ _) => False
  | .mesh (.control _ m) => m.1.headers.lookup "message_type" = none ∧ m.1.msgId = none
  | .mesh _ => True
  | .event _ (.status (.incoming _ _)) => False
  | .event _ (.send req _ _) => req.header "message_type" ≠ some (asBytes "delivery_status")
  | .event _ _ => True
  | .stream _ req _ _ => req.header "message_type" ≠ some (asBytes "delivery_status")
  | .take _ _ => True

/-- A node that has not sent anything. -/
structure FreshNode (n : NodeId) (node : DataNode) : Prop where
  nodeId : node.service.nodeId = n
  untracked : ∀ msgId, node.messageTracker.lookup msgId = none
  unpended : ∀ msgId, node.pendingMessages.lookup msgId = none
  inHand : node.retryPass.inHand = none

end MeshCore.Network
