import MeshCore.Wire.Meta
import MeshCore.Topology.Database

/-!
# Messages between sessions and the manager (`mesh-session`)

An `OutboundMessage` goes to a session, which builds a frame of it
(`build_data_frame`); a DATA frame that arrives becomes an `InboundMessage`
(`inboundOfFrame`, the DATA branch of `run_inbound_with_messages`), and the
manager turns an inbound message for another node into an outbound one again
(`forwarded`). Two kinds of control traffic use the same type and are told apart
by the `frame_type` header: topology updates and the request to terminate a
session.

Mirroring notes:
- Header maps are hash maps: a statement about their contents goes through
  `lookup`, since two maps with the same contents may be iterated differently.
- `anyhow::Error` is the error that was converted into it.
-/

namespace MeshCore.Session

open MeshCore.Lib MeshCore.Wire
open MeshCore.Topology (NodeId TopologyUpdate)

/-- `str::as_bytes`. -/
def asBytes (s : String) : Bytes := s.toUTF8.data.toList

/-- `OutboundMessage`. -/
structure OutboundMessage where
  srcNode : NodeId
  dstNode : NodeId
  payload : Bytes
  headers : HashMap String Bytes
  corrId : UInt64
  msgId : Option UInt64
  requireAck : Bool
  deriving DecidableEq

/-- `InboundMessage`. -/
structure InboundMessage where
  srcNode : NodeId
  dstNode : NodeId
  payload : Bytes
  headers : HashMap String Bytes
  corrId : UInt64
  msgId : Option UInt64
  requireAck : Bool
  deriving DecidableEq

/-- The reserved correlation ID of session termination. -/
def terminationCorrId : UInt64 := 0xFFFFFFFFFFFFFFFE

namespace OutboundMessage

/-- `create_termination_message`. -/
def createTerminationMessage (localNodeId targetNodeId : NodeId) : OutboundMessage :=
  { srcNode := localNodeId, dstNode := targetNodeId, payload := []
    headers := AList.insert "frame_type" (asBytes "session_terminate") ∅
    corrId := terminationCorrId, msgId := none, requireAck := false }

/-- `is_termination_message`. -/
def isTerminationMessage (m : OutboundMessage) : Bool :=
  m.corrId == terminationCorrId &&
    m.headers.lookup "frame_type" == some (asBytes "session_terminate")

/-- The frame type `build_data_frame` chooses. -/
def frameType (m : OutboundMessage) : FrameType :=
  if m.headers.lookup "frame_type" = some (asBytes "topology_update") then .topologyUpdate
  else .data

/-- The header `build_data_frame` makes. -/
def fastHeader (m : OutboundMessage) : FastHeader :=
  { FastHeader.new m.frameType m.srcNode m.dstNode (m.msgId.getD 0) with corrId := m.corrId }

/-- The acknowledgment flag, then all headers but the frame type. -/
def insertMeta (m : OutboundMessage) (builder : FrameBuilder) : FrameBuilder :=
  m.headers.entries.foldl
    (fun builder e =>
      if e.1 ≠ "frame_type" then builder.metaInsertBytes e.1 e.2 else builder)
    (if m.requireAck then builder.metaInsertStr "require_ack" "true" else builder)

end OutboundMessage

/-- The largest frame `build_data_frame` builds: 64 KiB. -/
def maxDataFrame : Nat := 65536

/-- `build_data_frame`. -/
def buildDataFrame (crates : Crates) (m : OutboundMessage) : Except CodecError Bytes :=
  ((m.insertMeta (FrameBuilder.new m.fastHeader)).payload m.payload).build crates maxDataFrame

/-- The header a metadata entry becomes: bytes and texts are kept, the
acknowledgment flag and values of other types are not. -/
def headerOfMeta (key : String) (value : CborValue) : Option Bytes :=
  if key ≠ "require_ack" then
    match value with
    | .bytes bytes => some bytes
    | .text text => some (asBytes text)
    | _ => none
  else none

/-- The headers and the acknowledgment flag of a DATA frame; none when the
metadata cannot be read. -/
def readMeta (fromReader : Bytes → Option CborValue) (metaRaw : Bytes) :
    HashMap String Bytes × Bool :=
  match parseMeta fromReader metaRaw with
  | .ok metaMap =>
    (metaMap.collect headerOfMeta, getMetaStr metaMap "require_ack" == some "true")
  | .error _ => (∅, false)

/-- The message a session makes of a DATA frame. -/
def inboundOfFrame (fromReader : Bytes → Option CborValue) (frame : Frame) : InboundMessage :=
  let (headers, requireAck) := readMeta fromReader frame.metaRaw
  { srcNode := frame.fast.srcNode, dstNode := frame.fast.dstNode
    payload := frame.payloadOrCipher, headers, corrId := frame.fast.corrId
    msgId := if frame.fast.msgId ≠ 0 then some frame.fast.msgId else none, requireAck }

/-- The message `handle_session_event` sends on for another node. -/
def InboundMessage.forwarded (m : InboundMessage) : OutboundMessage :=
  { srcNode := m.srcNode, dstNode := m.dstNode, payload := m.payload, headers := m.headers
    corrId := m.corrId, msgId := m.msgId, requireAck := m.requireAck }

/-- The message `handle_outbound_message` delivers when the destination is the
local node. -/
def OutboundMessage.delivered (m : OutboundMessage) : InboundMessage :=
  { srcNode := m.srcNode, dstNode := m.dstNode, payload := m.payload, headers := m.headers
    corrId := m.corrId, msgId := m.msgId, requireAck := m.requireAck }

/-! ## The frame of a message -/

/-- The metadata map of a message's frame. -/
def OutboundMessage.metaMap (m : OutboundMessage) : BTreeMap String CborValue :=
  m.headers.entries.foldl
    (fun metaMap e => if e.1 ≠ "frame_type" then metaMap.insert keyLt e.1 (.bytes e.2) else metaMap)
    (if m.requireAck then [("require_ack", .text "true")] else [])

/-- The frame of a message, given its metadata bytes. -/
def OutboundMessage.frame (m : OutboundMessage) (metaRaw : Bytes) : Frame :=
  Frame.new m.fastHeader metaRaw m.payload

theorem insertMeta_eq (m : OutboundMessage) (builder : FrameBuilder)
    (hmeta : builder.metadata = .new) :
    m.insertMeta builder = { builder with metadata := ⟨m.metaMap⟩ } := by
  have hfold : ∀ (l : List (Sigma fun _ : String => Bytes)) (b : FrameBuilder),
      l.foldl (fun builder e =>
        if e.1 ≠ "frame_type" then builder.metaInsertBytes e.1 e.2 else builder) b
      = { b with metadata := ⟨l.foldl (fun metaMap e =>
          if e.1 ≠ "frame_type" then metaMap.insert keyLt e.1 (.bytes e.2) else metaMap)
          b.metadata.map⟩ } := by
    intro l
    induction l with
    | nil => exact fun _ => rfl
    | cons e l ih =>
      intro b
      rw [List.foldl_cons, ih, List.foldl_cons]
      split
      · rfl
      · rfl
  unfold OutboundMessage.insertMeta OutboundMessage.metaMap
  rw [hfold]
  split
  · show FrameBuilder.mk .. = FrameBuilder.mk ..
    simp only [FrameBuilder.metaInsertStr, MetaBuilder.insertStr, MetaBuilder.insert, hmeta]
    rfl
  · rw [hmeta]
    rfl

/-- **The outcome of `build_data_frame`.** -/
theorem buildDataFrame_eq (crates : Crates) (m : OutboundMessage) :
    buildDataFrame crates m
      = match MetaBuilder.build crates ⟨m.metaMap⟩ with
        | .error e => .error e
        | .ok metaRaw =>
          if (m.frame metaRaw).encodedSize > maxDataFrame then
            .error (.wire (.size (m.frame metaRaw).encodedSize))
          else .ok (m.frame metaRaw).bytes := by
  unfold buildDataFrame
  rw [insertMeta_eq m _ rfl, FrameBuilder.build_eq]
  -- a new header requests no checksum
  have hfinal : ∀ b : FrameBuilder, b.fast = m.fastHeader → b.finalMeta crates = b.metadata := by
    intro b hb
    unfold FrameBuilder.finalMeta
    rw [hb]
    exact if_neg (by show ¬ Flags.empty.contains .hdrChecksum = true; decide)
  rw [hfinal _ rfl]
  rfl

end MeshCore.Session
