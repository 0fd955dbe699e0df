import MeshCore.Network.Routes
import MeshCore.Network.UnderWay

/-!
# Flows

A flow is what one node sends to another under one correlation ID: ECMP keeps it on one
path. `Flow.view` has the messages of a flow at each place of the mesh. A hop over a socket
leaves them as they are (`ofFrame_frame`), as long as what lies under the flow's addresses
is sound: messages that can be encoded and read back, and control messages, which sessions
tell apart by a header (`sound_survives`).
-/

namespace MeshCore.Network

open MeshCore.Lib MeshCore.Wire MeshCore.Session
open MeshCore.Topology (NodeId)
open MeshCore.Routing

/-! ## Flows -/

/-- What a message says, whatever the iteration order of its header map. -/
structure MessageContents where
  srcNode : NodeId
  dstNode : NodeId
  payload : Bytes
  headers : String → Option Bytes
  corrId : UInt64
  msgId : Option UInt64
  requireAck : Bool

/-- The contents of a message. -/
def contents (m : OutboundMessage) : MessageContents where
  srcNode := m.srcNode
  dstNode := m.dstNode
  payload := m.payload
  headers := m.headers.lookup
  corrId := m.corrId
  msgId := m.msgId
  requireAck := m.requireAck

theorem contents_forwarded {i : InboundMessage} {m : OutboundMessage} (h : SameMessage i m) :
    contents i.forwarded = contents m := by
  unfold contents InboundMessage.forwarded
  dsimp only
  rw [h.srcNode, h.dstNode, h.payload, funext h.headers, h.corrId, h.msgId, h.requireAck]

/-- What a node sends to another under one correlation ID. -/
structure Flow where
  src : NodeId
  dst : NodeId
  corrId : UInt64

/-- A message that every hop passes on as it is: it has neither of the headers with a
special meaning, no message ID that stands for none, and it fits in a frame. -/
structure Clean (env : SessionEnv) (m : OutboundMessage) : Prop where
  frameType : m.headers.lookup "frame_type" = none
  requireAck : m.headers.lookup "require_ack" = none
  msgId : m.msgId ≠ some 0
  encodes : ∃ bytes, buildDataFrame env.crates m = .ok bytes

namespace Flow

variable (env : SessionEnv) (F : Flow)

/-- The message has the addresses and the correlation ID of the flow. -/
abbrev Carries (m : OutboundMessage) : Prop :=
  m.srcNode = F.src ∧ m.dstNode = F.dst ∧ m.corrId = F.corrId

/-- The contents of a message of the flow. Control messages are none. -/
def ofOutbound (m : OutboundMessage) : Option MessageContents :=
  if F.Carries m ∧ m.headers.lookup "frame_type" = none then some (contents m) else none

def ofEvent : SessionEvent → Option MessageContents
  | .messageReceived i => F.ofOutbound i.forwarded
  | _ => none

def ofFrame (frame : Frame) : Option MessageContents := (frameEvent env frame).bind F.ofEvent

/-- What may be in a channel under the flow's addresses: its messages, and control
messages. -/
def Sound (m : OutboundMessage) : Prop :=
  F.Carries m → Clean env m ∨ m.frameType = .topologyUpdate ∨ m.isTerminationMessage = true

variable {env F}

theorem ofOutbound_eq_some {m : OutboundMessage} {c : MessageContents} :
    F.ofOutbound m = some c ↔
      F.Carries m ∧ m.headers.lookup "frame_type" = none ∧ contents m = c := by
  unfold ofOutbound
  split
  next h => exact ⟨fun hc => ⟨h.1, h.2, Option.some.inj hc⟩, fun h' => congrArg some h'.2.2⟩
  next h => exact iff_of_false (by simp) fun h' => h ⟨h'.1, h'.2.1⟩

/-- A control message has the header that marks it. -/
theorem frameType_header_ne_none {m : OutboundMessage}
    (h : m.frameType = .topologyUpdate ∨ m.isTerminationMessage = true) :
    m.headers.lookup "frame_type" ≠ none := by
  intro hnone
  rcases h with h | h
  · unfold OutboundMessage.frameType at h
    rw [hnone] at h
    exact absurd h (by simp)
  · unfold OutboundMessage.isTerminationMessage at h
    rw [hnone, Bool.and_eq_true] at h
    exact absurd h.2 (by simp)

theorem ofOutbound_control {m : OutboundMessage}
    (h : m.frameType = .topologyUpdate ∨ m.isTerminationMessage = true) :
    F.ofOutbound m = none :=
  if_neg fun h' => frameType_header_ne_none h h'.2

/-- A message of the flow that is sound is clean. -/
theorem Sound.clean {m : OutboundMessage} {c : MessageContents} (h : F.Sound env m)
    (hm : F.ofOutbound m = some c) : Clean env m := by
  obtain ⟨hcarries, hheader, -⟩ := ofOutbound_eq_some.mp hm
  exact (h hcarries).resolve_right fun hcontrol => frameType_header_ne_none hcontrol hheader

/-! ## One hop over a socket -/

/-- The frame of a message of no flow, or of a control message, is no message of the flow
either; that of a message of the flow is that message. -/
theorem ofFrame_frame (hread : ReadsBack env.crates env.fromReader) {m : OutboundMessage}
    (hsound : F.Sound env m) (hterm : m.isTerminationMessage = false) {metaRaw : Bytes}
    (hmeta : MetaBuilder.build env.crates ⟨m.metaMap⟩ = .ok metaRaw) :
    F.ofFrame env (m.frame metaRaw) = F.ofOutbound m := by
  unfold ofFrame frameEvent
  rw [show (m.frame metaRaw).fast.typ = m.frameType from rfl]
  by_cases hcarries : F.Carries m
  · rcases hsound hcarries with hclean | htopology | hterm'
    · have hdata : m.frameType = .data := by
        unfold OutboundMessage.frameType
        rw [hclean.frameType]
        exact if_neg (by simp)
      have hsame := sameMessage_of_frame
        (parseMeta_build hread hmeta (metaMap_plain m) (metaMap_sorted m)) hclean.frameType
        hclean.requireAck hclean.msgId
      rw [hdata]
      have hin : F.ofOutbound m = some (contents m) :=
        if_pos ⟨hcarries, hclean.frameType⟩
      rw [hin]
      refine ofOutbound_eq_some.mpr ⟨hcarries, ?_, contents_forwarded hsame⟩
      exact (hsame.headers _).trans hclean.frameType
    · rw [htopology, ofOutbound_control (.inl htopology)]
      dsimp only
      cases env.topologyUpdateFromSlice (m.frame metaRaw).payloadOrCipher with
      | none => rfl
      | some update => rfl
    · rw [hterm] at hterm'
      exact absurd hterm' (by simp)
  · -- the frame has the addresses of the message
    have hnone : F.ofOutbound m = none := if_neg fun h => hcarries h.1
    rcases frameType_cases m with hdata | htopology
    · rw [hdata, hnone]
      exact if_neg fun h => hcarries h.1
    · rw [htopology, hnone]
      dsimp only
      cases env.topologyUpdateFromSlice (m.frame metaRaw).payloadOrCipher with
      | none => rfl
      | some update => rfl

/-- What arrives is sound if what was written is. -/
theorem sound_survives (hread : ReadsBack env.crates env.fromReader) :
    SurvivesHop env (F.Sound env) := by
  intro m metaRaw hsound hterm hmeta i hi hcarries
  obtain ⟨hdata, rfl⟩ := message_of_frame hi
  rcases hsound hcarries with hclean | htopology | hterm'
  · have hsame := sameMessage_of_frame
      (parseMeta_build hread hmeta (metaMap_plain m) (metaMap_sorted m)) hclean.frameType
      hclean.requireAck hclean.msgId
    left
    refine ⟨(hsame.headers _).trans hclean.frameType, (hsame.headers _).trans hclean.requireAck,
      fun h => hclean.msgId (hsame.msgId.symm.trans h), ?_⟩
    obtain ⟨bytes, hbytes⟩ := hclean.encodes
    exact ⟨bytes, (hsame.buildDataFrame env.crates).trans hbytes⟩
  · rw [hdata] at htopology
    exact absurd htopology (by simp)
  · rw [hterm] at hterm'
    exact absurd hterm' (by simp)

end Flow

/-! ## The messages of a flow at each place -/

/-- The frames under way from a session's end. -/
def framesOn (wire : Bytes) : List Frame := (framing.drain wire).1

theorem framesOn_concat {frames : List Frame} (h : ∀ f ∈ frames, f.WellFormed) :
    framesOn (framing.concat frames) = frames := by
  obtain ⟨done, todo, left, hdrain, hframes, -, htodo⟩ :=
    framing.drainFuel_concat frames ((framing.concat frames).length + 1) (framing.concat frames) []
      h (List.append_nil _) (Nat.lt_succ_self _)
  unfold framesOn Framing.drain
  rw [hdrain, hframes, htodo rfl, List.append_nil]

/-- The messages of a flow at each place. -/
def Flow.view (env : SessionEnv) (F : Flow) (s : Mesh) : Place → List MessageContents
  | .outbound n => (s.outbound n).filterMap F.ofOutbound
  | .events n => (s.events n).filterMap F.ofEvent
  | .queue e => (s.queue e).filterMap F.ofOutbound
  | .wire e => (framesOn (s.wire e)).filterMap (F.ofFrame env)
  | .delivered n => (s.delivered n).filterMap fun i => F.ofOutbound i.forwarded

section View

variable (env : SessionEnv) (F : Flow) (s : Mesh)

theorem view_outbound (n : NodeId) (ms : List OutboundMessage) :
    F.view env { s with outbound := Function.update s.outbound n ms }
      = Function.update (F.view env s) (.outbound n) (ms.filterMap F.ofOutbound) := by
  funext p
  cases p with
  | outbound n' =>
    by_cases hn : n' = n
    · rw [hn, Function.update_self]
      exact congrArg (List.filterMap F.ofOutbound) (Function.update_self ..)
    · rw [Function.update_of_ne (fun h => hn (Place.outbound.inj h))]
      exact congrArg (List.filterMap F.ofOutbound) (Function.update_of_ne hn ..)
  | _ => exact (Function.update_of_ne (by simp) ..).symm

theorem view_events (n : NodeId) (es : List SessionEvent) :
    F.view env { s with events := Function.update s.events n es }
      = Function.update (F.view env s) (.events n) (es.filterMap F.ofEvent) := by
  funext p
  cases p with
  | events n' =>
    by_cases hn : n' = n
    · rw [hn, Function.update_self]
      exact congrArg (List.filterMap F.ofEvent) (Function.update_self ..)
    · rw [Function.update_of_ne (fun h => hn (Place.events.inj h))]
      exact congrArg (List.filterMap F.ofEvent) (Function.update_of_ne hn ..)
  | _ => exact (Function.update_of_ne (by simp) ..).symm

theorem view_queue (e : SessionEnd) (ms : List OutboundMessage) :
    F.view env { s with queue := Function.update s.queue e ms }
      = Function.update (F.view env s) (.queue e) (ms.filterMap F.ofOutbound) := by
  funext p
  cases p with
  | queue e' =>
    by_cases he : e' = e
    · rw [he, Function.update_self]
      exact congrArg (List.filterMap F.ofOutbound) (Function.update_self ..)
    · rw [Function.update_of_ne (fun h => he (Place.queue.inj h))]
      exact congrArg (List.filterMap F.ofOutbound) (Function.update_of_ne he ..)
  | _ => exact (Function.update_of_ne (by simp) ..).symm

theorem view_wire (e : SessionEnd) (bytes : Bytes) :
    F.view env { s with wire := Function.update s.wire e bytes }
      = Function.update (F.view env s) (.wire e) ((framesOn bytes).filterMap (F.ofFrame env)) := by
  funext p
  cases p with
  | wire e' =>
    by_cases he : e' = e
    · rw [he, Function.update_self]
      exact congrArg (fun b => (framesOn b).filterMap (F.ofFrame env)) (Function.update_self ..)
    · rw [Function.update_of_ne (fun h => he (Place.wire.inj h))]
      exact congrArg (fun b => (framesOn b).filterMap (F.ofFrame env))
        (Function.update_of_ne he ..)
  | _ => exact (Function.update_of_ne (by simp) ..).symm

theorem view_delivered (n : NodeId) (is : List InboundMessage) :
    F.view env { s with delivered := Function.update s.delivered n is }
      = Function.update (F.view env s) (.delivered n)
          (is.filterMap fun i => F.ofOutbound i.forwarded) := by
  funext p
  cases p with
  | delivered n' =>
    by_cases hn : n' = n
    · rw [hn, Function.update_self]
      exact congrArg (List.filterMap fun i : InboundMessage => F.ofOutbound i.forwarded)
        (Function.update_self ..)
    · rw [Function.update_of_ne (fun h => hn (Place.delivered.inj h))]
      exact congrArg (List.filterMap fun i : InboundMessage => F.ofOutbound i.forwarded)
        (Function.update_of_ne hn ..)
  | _ => exact (Function.update_of_ne (by simp) ..).symm

theorem view_push_outbound (n : NodeId) (m : OutboundMessage) :
    F.view env { s with outbound := push s.outbound n m }
      = Function.update (F.view env s) (.outbound n)
          (F.view env s (.outbound n) ++ (F.ofOutbound m).toList) := by
  unfold push
  rw [view_outbound, filterMap_concat]
  rfl

theorem view_push_queue (e : SessionEnd) (m : OutboundMessage) :
    F.view env { s with queue := push s.queue e m }
      = Function.update (F.view env s) (.queue e)
          (F.view env s (.queue e) ++ (F.ofOutbound m).toList) := by
  unfold push
  rw [view_queue, filterMap_concat]
  rfl

theorem view_push_delivered (n : NodeId) (m : OutboundMessage) :
    F.view env { s with delivered := push s.delivered n m.delivered }
      = Function.update (F.view env s) (.delivered n)
          (F.view env s (.delivered n) ++ (F.ofOutbound m).toList) := by
  unfold push
  rw [view_delivered, filterMap_concat]
  rfl

end View

/-! ## The mesh along a route -/

/-- A node with this manager sends the messages of the flow into this channel. -/
def Flow.LeadsTo (F : Flow) (mgr : SessionManager) (messageTx : Channel) : Prop :=
  ∃ ecmp, mgr.routingTable.decide
      { srcNode := mgr.localNodeId, dstNode := F.dst, ttl := 64, corrId := F.corrId }
        = .forward ecmp ∧
    mgr.sessions.lookup ecmp.nextHop.nodeId = some messageTx

/-- The step keeps to the route: a node submits its own messages, those of the flow are
clean, and a node on the route that is reconfigured keeps the next hop. -/
def MeshStep.Respects (env : SessionEnv) (F : Flow) (hops : List SessionEnd) : MeshStep → Prop
  | .submit n m => m.srcNode = n ∧ (F.Carries m → Clean env m)
  | .reconfigure n routingTable sessions =>
    ∀ tx, (n, tx) ∈ hops → F.LeadsTo { localNodeId := n, routingTable, sessions } tx
  | _ => True

/-- The message of the flow that a step submits. -/
def Flow.submitted (F : Flow) : MeshStep → Option MessageContents
  | .submit _ m => F.ofOutbound m
  | _ => none

/-- What a step that respects a route adds is sound. -/
theorem MeshStep.Respects.adds {env : SessionEnv} {F : Flow} {hops : List SessionEnd}
    {a : MeshStep} (ha : a.Respects env F hops) : a.Adds (F.Sound env) := by
  cases a with
  | submit n m => exact fun hcarries => .inl (ha.2 hcarries)
  | control e m => exact fun _ => .inr m.2
  | _ => trivial

end MeshCore.Network
