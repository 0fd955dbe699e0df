import MeshCore.Session.Lifecycle
import MeshCore.Session.Ttl
import MeshCore.Lib.Pipeline

/-!
# A mesh of nodes (`main.rs`, `manager.rs`, `session.rs`)

Every node has a session manager, which takes messages from the gRPC service and events
from the sessions, one at a time. A message it routes goes into the channel of a session,
the session writes it to its socket as a frame, the session at the other end cuts frames
out of the bytes and sends them to its own manager as events. All of these run
concurrently: a step of the mesh is one of them doing its next piece of work.

Mirroring notes:
- A session's end at a node is the pair of the node and the session's channel. `peer` says
  which node is at the other end.
- The bytes under way from one end to the other are one list, in the socket or in the
  buffer of the reader. The step `read` decodes the next frame at any time. The code asks
  the decoder only after a read that gave new bytes, so a frame may have to wait in the
  buffer for the bytes of a later one: the mesh has all runs of the code, and more. The
  reader with its reads is in `MeshCore.Network.Reading`.
- What HELLO, PING and PONG frames and the ends of sessions do to a node's sessions, and
  what topology updates do to its routing table, is the step `reconfigure`, which may set
  both to anything. A session's end that has left its loop takes no messages and writes
  nothing any more.
- The manager sends topology updates, and `main` the termination messages, into the
  channels of the sessions without routing them.
-/

namespace MeshCore.Network

open MeshCore.Lib MeshCore.Wire MeshCore.Session
open MeshCore.Topology (NodeId)
open MeshCore.Routing

/-- The end of a session at a node. -/
abbrev SessionEnd := NodeId × Channel

/-- A message that is sent into a session's channel without being routed: a topology
update of `broadcast_topology_update`, or a termination message. -/
abbrev ControlMessage :=
  { m : OutboundMessage // m.frameType = .topologyUpdate ∨ m.isTerminationMessage = true }

/-- A frame a session writes on its own account. -/
abbrev KeepaliveFrame :=
  { f : Frame // f.WellFormed ∧
    (f.fast.typ = .hello ∨ f.fast.typ = .ping ∨ f.fast.typ = .pong) }

/-- The nodes of a mesh, and what is under way between them. -/
structure Mesh where
  manager : NodeId → SessionManager
  /-- `outbound_rx` of each manager. -/
  outbound : NodeId → List OutboundMessage
  /-- `event_rx` of each manager. -/
  events : NodeId → List SessionEvent
  /-- The channel of each session's end. -/
  queue : SessionEnd → List OutboundMessage
  /-- The bytes written there and not decoded at the other end. -/
  wire : SessionEnd → Bytes
  closed : SessionEnd → Bool
  /-- What has been sent to `delivery_tx` of each node. -/
  delivered : NodeId → List InboundMessage

/-- One piece of work, of one of the concurrent parts of a mesh. -/
inductive MeshStep where
  /-- The gRPC service of a node sends a message to its manager. -/
  | submit (n : NodeId) (m : OutboundMessage)
  | handleOutbound (n : NodeId)
  | handleEvent (n : NodeId)
  | control (e : SessionEnd) (m : ControlMessage)
  | write (e : SessionEnd)
  | keepalive (e : SessionEnd) (f : KeepaliveFrame)
  /-- The other end decodes the next frame. -/
  | read (e : SessionEnd)
  | close (e : SessionEnd)
  | reconfigure (n : NodeId) (routingTable : RoutingTable) (sessions : HashMap NodeId Channel)

/-- The event a session emits for a frame that is not about the session itself. -/
def frameEvent (env : SessionEnv) (frame : Frame) : Option SessionEvent :=
  match frame.fast.typ with
  | .data => some (.messageReceived (inboundOfFrame env.fromReader frame))
  | .topologyUpdate => (env.topologyUpdateFromSlice frame.payloadOrCipher).map .topologyUpdate
  | .topologyRequest => (env.topologyRequestFromSlice frame.payloadOrCipher).map .topologyRequest
  | _ => none

/-- It is the event of the session's loop. -/
theorem handleFrame_event (env : SessionEnv) (messageTx : Channel) (s : SessionState)
    (r : Registry) (now : Nat) (frame : Frame) (written : Bool)
    (htyp : frame.fast.typ = .data ∨ frame.fast.typ = .topologyUpdate ∨
      frame.fast.typ = .topologyRequest) :
    (s.handleFrame env messageTx r now frame written).event = frameEvent env frame := by
  unfold SessionState.handleFrame frameEvent
  rcases htyp with h | h | h
  · rw [h]
  · rw [h]
  · rw [h]

namespace Mesh

/-- What becomes of an output of a node's manager. -/
def perform (n : NodeId) (s : Mesh) : ManagerOutput → Mesh
  | .send messageTx m => { s with queue := push s.queue (n, messageTx) m }
  | .deliver m => { s with delivered := push s.delivered n m }
  | .feedback _ => s
  | .receivedTopology _ => s

/-- One step. A part that has nothing to do changes nothing. -/
def step (env : SessionEnv) (peer : SessionEnd → NodeId) (s : Mesh) : MeshStep → Mesh
  | .submit n m => { s with outbound := push s.outbound n m }
  | .handleOutbound n =>
    match s.outbound n with
    | [] => s
    | m :: rest =>
      ((s.manager n).handleOutboundMessage m).foldl (perform n)
        { s with outbound := Function.update s.outbound n rest }
  | .handleEvent n =>
    match s.events n with
    | [] => s
    | e :: rest =>
      -- none of these events consults the registry
      let (mgr, outputs) := (s.manager n).handleSessionEvent ∅ e
      outputs.foldl (perform n)
        { s with events := Function.update s.events n rest
                 manager := Function.update s.manager n mgr }
  | .control e m => { s with queue := push s.queue e m }
  | .write e =>
    if s.closed e then s
    else
      match s.queue e with
      | [] => s
      | m :: rest =>
        if m.isTerminationMessage then
          { s with queue := Function.update s.queue e rest
                   closed := Function.update s.closed e true }
        else
          { s with queue := Function.update s.queue e rest
                   wire := Function.update s.wire e
                    (s.wire e ++ (sessionWrites env.crates m).getD []) }
  | .keepalive e f =>
    if s.closed e then s
    else { s with wire := Function.update s.wire e (s.wire e ++ f.1.bytes) }
  | .read e =>
    match FrameDecoder.new.decode (s.wire e) with
    | (.ok (some frame), rest) =>
      { s with wire := Function.update s.wire e rest
               events := Function.update s.events (peer e)
                (s.events (peer e) ++ (frameEvent env frame).toList) }
    | _ => s
  | .close e => { s with closed := Function.update s.closed e true }
  | .reconfigure n routingTable sessions =>
    { s with manager := Function.update s.manager n { localNodeId := n, routingTable, sessions } }

/-- What a manager makes of a message: it delivers it, puts it into the channel of the
next hop, or drops it. -/
theorem perform_handleOutboundMessage {mgr : SessionManager} {n : NodeId}
    (hlocal : mgr.localNodeId = n) (s : Mesh) (m : OutboundMessage) :
    (mgr.handleOutboundMessage m).foldl (perform n) s
      = if m.dstNode = n then { s with delivered := push s.delivered n m.delivered }
        else
          match mgr.decision m with
          | .forward ecmp =>
            match mgr.sessions.lookup ecmp.nextHop.nodeId with
            | some messageTx => { s with queue := push s.queue (n, messageTx) m }
            | none => s
          | .local => { s with delivered := push s.delivered n m.delivered }
          | .drop _ => s := by
  unfold SessionManager.handleOutboundMessage SessionManager.route
  rw [hlocal]
  split
  next => rfl
  next =>
    -- feedback goes to the gRPC service
    have hfeedback : ((m.msgId.map fun msgId =>
        ManagerOutput.feedback (routingFeedback msgId (mgr.decision m))).toList).foldl
          (perform n) s = s := by
      cases m.msgId with
      | none => rfl
      | some msgId => rfl
    rw [List.foldl_append, hfeedback]
    cases mgr.decision m with
    | forward ecmp =>
      dsimp only
      cases mgr.sessions.lookup ecmp.nextHop.nodeId with
      | none => rfl
      | some messageTx => rfl
    | «local» => rfl
    | drop reason => rfl

/-- Nothing is under way. -/
def start (manager : NodeId → SessionManager) : Mesh where
  manager
  outbound _ := []
  events _ := []
  queue _ := []
  wire _ := []
  closed _ := false
  delivered _ := []

/-- The state after some steps. -/
def run (env : SessionEnv) (peer : SessionEnd → NodeId) (manager : NodeId → SessionManager)
    (steps : List MeshStep) : Mesh :=
  steps.foldl (step env peer) (start manager)

end Mesh

/-! ## What the steps do -/

theorem frameEvent_keepalive (f : KeepaliveFrame) : frameEvent env f.1 = none := by
  unfold frameEvent
  rcases f.2.2 with h | h | h
  · rw [h]
  · rw [h]
  · rw [h]

section Steps

variable {env : SessionEnv} {peer : SessionEnd → NodeId}

theorem step_handleOutbound {s : Mesh} {n : NodeId} {m : OutboundMessage}
    {rest : List OutboundMessage} (houtbound : s.outbound n = m :: rest) :
    s.step env peer (.handleOutbound n)
      = ((s.manager n).handleOutboundMessage m).foldl (Mesh.perform n)
          { s with outbound := Function.update s.outbound n rest } := by
  unfold Mesh.step
  dsimp only
  rw [houtbound]

/-- A part that has nothing to do. -/
theorem step_idle {s : Mesh} {a : MeshStep}
    (ha : (∃ n, a = .handleOutbound n ∧ s.outbound n = []) ∨
      (∃ n, a = .handleEvent n ∧ s.events n = []) ∨
      (∃ e, a = .write e ∧ (s.closed e = true ∨ s.queue e = [])) ∨
      ∃ e, a = .read e ∧ s.wire e = []) :
    s.step env peer a = s := by
  unfold Mesh.step
  rcases ha with ⟨n, rfl, h⟩ | ⟨n, rfl, h⟩ | ⟨e, rfl, h⟩ | ⟨e, rfl, h⟩
  · dsimp only
    rw [h]
  · dsimp only
    rw [h]
  · dsimp only
    split
    · rfl
    next hopen =>
      rw [h.resolve_left hopen]
  · have hdecode : FrameDecoder.new.decode [] = (.ok none, []) := framing.decode_nil
    dsimp only
    rw [h, hdecode]

/-- Handling the event of a message is handling the message. -/
theorem step_handleEvent_message {s : Mesh} {n : NodeId} {i : InboundMessage}
    {rest : List SessionEvent} (hevents : s.events n = .messageReceived i :: rest) :
    s.step env peer (.handleEvent n)
      = ((s.manager n).handleOutboundMessage i.forwarded).foldl (Mesh.perform n)
          { s with events := Function.update s.events n rest } := by
  have hsame : Function.update s.manager n (s.manager n) = s.manager := Function.update_eq_self ..
  unfold Mesh.step
  dsimp only
  rw [hevents]
  unfold SessionManager.handleSessionEvent
  dsimp only
  rw [hsame]
  split
  next hlocal =>
    unfold SessionManager.handleOutboundMessage
    rw [if_pos (show i.forwarded.dstNode = _ from hlocal)]
    rfl
  next => rfl

/-- Reading from a socket that carries whole frames takes the first of them. -/
theorem step_read {s : Mesh} {e : SessionEnd} {f : Frame} {frames : List Frame}
    (hf : f.WellFormed) (hwire : s.wire e = framing.concat (f :: frames)) :
    s.step env peer (.read e)
      = { s with wire := Function.update s.wire e (framing.concat frames)
                 events := Function.update s.events (peer e)
                  (s.events (peer e) ++ (frameEvent env f).toList) } := by
  have hdecode : FrameDecoder.new.decode (framing.encode f ++ framing.concat frames)
      = (.ok (some f), framing.concat frames) := framing.decode_encode f _ hf
  unfold Mesh.step
  dsimp only
  rw [hwire, Framing.concat_cons, hdecode]

/-- What a session makes of the next message of its channel. -/
theorem step_write {s : Mesh} {e : SessionEnd} {m : OutboundMessage} {rest : List OutboundMessage}
    (hopen : s.closed e = false) (hqueue : s.queue e = m :: rest) :
    s.step env peer (.write e)
      = if m.isTerminationMessage then
          { s with queue := Function.update s.queue e rest
                   closed := Function.update s.closed e true }
        else
          { s with queue := Function.update s.queue e rest
                   wire := Function.update s.wire e
                    (s.wire e ++ (sessionWrites env.crates m).getD []) } := by
  unfold Mesh.step
  dsimp only
  rw [hopen, hqueue]
  rfl

end Steps

end MeshCore.Network
