import MeshCore.Grpc.Data
import MeshCore.Session.Ttl

/-!
# Application data and control traffic

Three components tell control traffic from data by what is in a message's
headers: a session closes for a message with the reserved correlation ID and the
`frame_type` header `session_terminate`, `build_data_frame` makes a topology frame
of a message with the `frame_type` header `topology_update`, and the service at
the destination takes a message with the `message_type` header `delivery_status`
for a status report. The headers and the correlation ID of a request are the
client's, and `send` passes all of them on.

`hop` takes a message from one node to the next one, as the session at one end and
the DATA branch of the session at the other do. It drops the `frame_type` header
and keeps `message_type` (`hop_headers`), so the first two confusions happen at the
sender or nowhere, and the third at the destination. `application_data_iff` says
exactly which accepted requests are data all the way.
-/

namespace MeshCore.Grpc

open MeshCore.Lib MeshCore.Wire MeshCore.Session
open MeshCore.Topology (NodeId)

/-! ## From node to node -/

/-- The message the next node has after a session was given this one: nothing when
the session closes or the frame cannot be built, and nothing when the frame is not
a DATA frame. -/
def hop (crates : Crates) (fromReader : Bytes → Option CborValue) (m : OutboundMessage) :
    Option InboundMessage :=
  (sessionWrites crates m).bind fun bytes =>
    match FrameDecoder.new.decode bytes with
    | (.ok (some frame), _) =>
      if frame.fast.typ = .data then some (inboundOfFrame fromReader frame) else none
    | _ => none

/-- The message at the node after so many forwarders. -/
def arrives (crates : Crates) (fromReader : Bytes → Option CborValue) :
    Nat → OutboundMessage → Option InboundMessage
  | 0, m => hop crates fromReader m
  | n + 1, m => (hop crates fromReader m).bind fun i => arrives crates fromReader n i.forwarded

/-- The message is data at every hop: no session closes for it, every frame of it
is a DATA frame, and the service at the destination does not take it for a status
message, whether it came over the mesh or was for the sender's own node. -/
structure DataEverywhere (crates : Crates) (fromReader : Bytes → Option CborValue) (nodeId : NodeId)
    (m : OutboundMessage) : Prop where
  notTermination : m.isTerminationMessage = false
  frameType : m.frameType = .data
  forwarded : ∀ n i, arrives crates fromReader n m = some i →
    i.forwarded.isTerminationMessage = false ∧ i.forwarded.frameType = .data
  delivered : ∀ n i, arrives crates fromReader n m = some i →
    incoming i.dstNode (receivedOf i) ≠ .deliveryStatus
  deliveredHere : m.dstNode = nodeId → incoming nodeId (receivedOf m.delivered) ≠ .deliveryStatus

/-! ## What a hop does to the headers -/

/-- A message that is data, and whose frame can be built, makes the hop. -/
theorem hop_eq_some {crates : Crates} (fromReader : Bytes → Option CborValue)
    {m : OutboundMessage} (hterm : m.isTerminationMessage = false) (htyp : m.frameType = .data)
    {bytes : Bytes} (hbuild : buildDataFrame crates m = .ok bytes) :
    ∃ metaRaw, hop crates fromReader m = some (inboundOfFrame fromReader (m.frame metaRaw)) := by
  obtain ⟨metaRaw, _, hdecode⟩ := decode_buildDataFrame hbuild
  refine ⟨metaRaw, ?_⟩
  have hwrites : sessionWrites crates m = some bytes := by
    unfold sessionWrites
    rw [hterm, hbuild]
    rfl
  unfold hop
  rw [hwrites, Option.bind_some, hdecode]
  exact if_pos htyp

/-- What made a hop had a frame. -/
theorem hop_inv {crates : Crates} {fromReader : Bytes → Option CborValue} {m : OutboundMessage}
    {i : InboundMessage} (h : hop crates fromReader m = some i) :
    ∃ bytes metaRaw, buildDataFrame crates m = .ok bytes ∧
      MetaBuilder.build crates ⟨m.metaMap⟩ = .ok metaRaw ∧
      i = inboundOfFrame fromReader (m.frame metaRaw) := by
  unfold hop at h
  obtain ⟨bytes, hwrites, hrest⟩ := Option.bind_eq_some_iff.mp h
  unfold sessionWrites at hwrites
  split at hwrites
  next => exact absurd hwrites (by simp)
  next =>
    split at hwrites
    next bytes' hbuild =>
      obtain rfl := Option.some.inj hwrites
      obtain ⟨metaRaw, hmeta, hdecode⟩ := decode_buildDataFrame hbuild
      rw [hdecode] at hrest
      dsimp only at hrest
      split at hrest
      next => exact ⟨bytes', metaRaw, hbuild, hmeta, (Option.some.inj hrest).symm⟩
      next => exact absurd hrest (by simp)
    next => exact absurd hwrites (by simp)

/-- **What a hop does to a message's headers.** -/
theorem hop_headers {crates : Crates} {fromReader : Bytes → Option CborValue}
    (hread : ReadsBack crates fromReader) {m : OutboundMessage} {i : InboundMessage}
    (h : hop crates fromReader m = some i) (key : String) :
    i.headers.lookup key
      = if key = "frame_type" ∨ key = "require_ack" then none else m.headers.lookup key := by
  obtain ⟨bytes, metaRaw, _, hmeta, rfl⟩ := hop_inv h
  exact readMeta_lookup (parseMeta_build hread hmeta (metaMap_plain m) (metaMap_sorted m)) key

/-- What arrives after any number of hops has no frame type, and the message type
it was sent with. -/
theorem arrives_headers {crates : Crates} {fromReader : Bytes → Option CborValue}
    (hread : ReadsBack crates fromReader) {n : Nat} {m : OutboundMessage} {i : InboundMessage}
    (h : arrives crates fromReader n m = some i) :
    i.headers.lookup "frame_type" = none ∧
      i.headers.lookup "message_type" = m.headers.lookup "message_type" := by
  induction n generalizing m with
  | zero => exact ⟨hop_headers hread h _, hop_headers hread h _⟩
  | succ n ih =>
    obtain ⟨i', hhop, hrest⟩ := Option.bind_eq_some_iff.mp h
    obtain ⟨hframeType, hmessageType⟩ := ih hrest
    exact ⟨hframeType, hmessageType.trans (hop_headers hread hhop _)⟩

/-- What arrives anywhere left the sender in a frame. -/
theorem arrives_build {crates : Crates} {fromReader : Bytes → Option CborValue} {n : Nat}
    {m : OutboundMessage} {i : InboundMessage} (h : arrives crates fromReader n m = some i) :
    ∃ bytes, buildDataFrame crates m = .ok bytes := by
  cases n with
  | zero =>
    obtain ⟨bytes, _, hbuild, _⟩ := hop_inv h
    exact ⟨bytes, hbuild⟩
  | succ n =>
    obtain ⟨i', hhop, _⟩ := Option.bind_eq_some_iff.mp h
    obtain ⟨bytes, _, hbuild, _⟩ := hop_inv hhop
    exact ⟨bytes, hbuild⟩

/-! ## The three checks -/

theorem isTerminationMessage_eq_false {m : OutboundMessage} :
    m.isTerminationMessage = false ↔
      ¬ (m.corrId = terminationCorrId ∧
        m.headers.lookup "frame_type" = some (asBytes "session_terminate")) := by
  unfold OutboundMessage.isTerminationMessage
  rw [Bool.and_eq_false_iff, beq_eq_false_iff_ne, beq_eq_false_iff_ne, not_and_or]

theorem frameType_eq_data {m : OutboundMessage} :
    m.frameType = .data ↔ m.headers.lookup "frame_type" ≠ some (asBytes "topology_update") := by
  unfold OutboundMessage.frameType
  by_cases h : m.headers.lookup "frame_type" = some (asBytes "topology_update")
  · rw [if_pos h]
    exact iff_of_false (by simp) (fun hne => hne h)
  · rw [if_neg h]
    exact iff_of_true rfl h

theorem incoming_eq_deliveryStatus {m : InboundMessage} :
    incoming m.dstNode (receivedOf m) = .deliveryStatus ↔
      m.headers.lookup "message_type" = some (asBytes "delivery_status") := by
  have hany : (receivedOf m).headers.any (fun header =>
      header.key == "message_type" && header.value == asBytes "delivery_status") = true ↔
      m.headers.lookup "message_type" = some (asBytes "delivery_status") := by
    rw [List.any_eq_true, ← HashMap.mem_entries_iff]
    constructor
    · rintro ⟨header, hmem, hboth⟩
      obtain ⟨e, he, rfl⟩ := List.mem_map.mp hmem
      obtain ⟨hkey, hvalue⟩ := (Bool.and_eq_true_iff).mp hboth
      rw [← eq_of_beq hkey, ← eq_of_beq hvalue]
      exact he
    · intro hmem
      exact ⟨_, List.mem_map.mpr ⟨_, hmem, rfl⟩, by simp⟩
  unfold incoming
  rw [if_neg (fun hne => hne rfl)]
  split
  next h => exact iff_of_true rfl (hany.mp h)
  next h => exact iff_of_false (by simp) (fun hlookup => h (hany.mpr hlookup))

/-- When a message is data everywhere, in terms of its headers. -/
theorem dataEverywhere_iff {crates : Crates} {fromReader : Bytes → Option CborValue}
    (hread : ReadsBack crates fromReader) (nodeId : NodeId) (m : OutboundMessage) :
    DataEverywhere crates fromReader nodeId m ↔
      ¬ (m.corrId = terminationCorrId ∧
        m.headers.lookup "frame_type" = some (asBytes "session_terminate")) ∧
      m.headers.lookup "frame_type" ≠ some (asBytes "topology_update") ∧
      (m.headers.lookup "message_type" ≠ some (asBytes "delivery_status") ∨
        (m.dstNode ≠ nodeId ∧ ∀ bytes, buildDataFrame crates m ≠ .ok bytes)) := by
  constructor
  · intro h
    refine ⟨isTerminationMessage_eq_false.mp h.notTermination, frameType_eq_data.mp h.frameType, ?_⟩
    by_contra hnot
    obtain ⟨hstatus, hreaches⟩ := not_or.mp hnot
    rw [not_not] at hstatus
    refine hreaches ⟨?_, ?_⟩
    · intro hlocal
      have hhere := h.deliveredHere hlocal
      rw [← hlocal] at hhere
      exact hhere (incoming_eq_deliveryStatus.mpr hstatus)
    · intro bytes hbuild
      obtain ⟨metaRaw, hhop⟩ := hop_eq_some fromReader h.notTermination h.frameType hbuild
      refine h.delivered 0 _ hhop (incoming_eq_deliveryStatus.mpr ?_)
      exact (hop_headers hread hhop _).trans hstatus
  · rintro ⟨hterm, htyp, hstatus⟩
    refine ⟨isTerminationMessage_eq_false.mpr hterm, frameType_eq_data.mpr htyp, ?_, ?_, ?_⟩
    · intro n i harrives
      have hframeType : i.forwarded.headers.lookup "frame_type" = none :=
        (arrives_headers hread harrives).1
      rw [isTerminationMessage_eq_false, frameType_eq_data, hframeType]
      exact ⟨by simp, by simp⟩
    · intro n i harrives
      obtain ⟨bytes, hbuild⟩ := arrives_build harrives
      have hplain := hstatus.resolve_right fun hno => hno.2 bytes hbuild
      rw [Ne, incoming_eq_deliveryStatus, (arrives_headers hread harrives).2]
      exact hplain
    · intro hlocal
      have hplain := hstatus.resolve_right fun hno => hno.1 hlocal
      rw [← hlocal]
      exact fun h => hplain (incoming_eq_deliveryStatus.mp h)

/-! ## Accepted requests -/

/-- The header of a request with this key: the last one, when there are several. -/
def SendRequest.header (req : SendRequest) (key : String) : Option Bytes :=
  (req.headers.reverse.find? fun header => header.key = key).map Header.value

theorem outbound_lookup (req : SendRequest) (nodeId : NodeId) (msgId : UInt64) (key : String) :
    (req.outbound nodeId msgId).headers.lookup key = req.header key := by
  refine (HashMap.lookup_insertAll Header.key Header.value req.headers ∅ key).trans ?_
  exact Option.or_none

/-- The only message `send` queues is the one it makes of the request. -/
theorem send_outbound {svc : MeshDataService} {req : SendRequest} {now : Nat} {isOpen : Bool}
    {m : OutboundMessage} (hm : m ∈ (svc.send req now isOpen).outbound) :
    m = req.outbound svc.nodeId svc.nextId := by
  rcases svc.send_outcomes req now isOpen with ⟨-, text, hsend⟩ | ⟨text, hsend⟩ |
    ⟨-, -, text, hsend⟩ | ⟨-, -, text, hsend⟩ | ⟨queued, -, hsend⟩
  · rw [hsend] at hm
    exact absurd hm List.not_mem_nil
  · rw [hsend] at hm
    exact absurd hm List.not_mem_nil
  · rw [hsend] at hm
    exact absurd hm List.not_mem_nil
  · rw [hsend] at hm
    exact absurd hm List.not_mem_nil
  · rw [hsend] at hm
    exact List.mem_singleton.mp hm

/-- **Which accepted requests are data at every hop.** For every request that
`send` accepts, the message it queues is data everywhere if and only if its last
`frame_type` header is not `topology_update`, nor `session_terminate` together
with the reserved correlation ID, and its last `message_type` header is not
`delivery_status`, unless the message is for another node and its frame cannot be
built. -/
theorem application_data_iff {crates : Crates} {fromReader : Bytes → Option CborValue}
    (hread : ReadsBack crates fromReader) (svc : MeshDataService) (req : SendRequest) (now : Nat)
    (isOpen : Bool) {m : OutboundMessage} (hm : m ∈ (svc.send req now isOpen).outbound) :
    DataEverywhere crates fromReader svc.nodeId m ↔
      ¬ (req.corrId = terminationCorrId ∧
        req.header "frame_type" = some (asBytes "session_terminate")) ∧
      req.header "frame_type" ≠ some (asBytes "topology_update") ∧
      (req.header "message_type" ≠ some (asBytes "delivery_status") ∨
        (req.dstNode ≠ svc.nodeId ∧ ∀ bytes,
          buildDataFrame crates (req.outbound svc.nodeId svc.nextId) ≠ .ok bytes)) := by
  rw [send_outbound hm, dataEverywhere_iff hread, outbound_lookup, outbound_lookup]
  exact Iff.rfl

/-- A new service of node 1, without a topology database. -/
def newService : MeshDataService :=
  { nodeId := 1, nextId := 1, ackedMessages := ∅, messageTracker := ∅, topologyDb := none
    messageQueue := { pendingMessages := ∅ } }

/-- A request to send one byte to node 3. -/
def requestWith (headers : List Header) (corrId : UInt64) : SendRequest :=
  { dstNode := 3, headers, payload := [7], corrId, requireAck := false, mode := .fireAndForget
    timeoutSeconds := 0 }

/-- A request with the header `k` is data everywhere. -/
theorem application_data_plain :
    DataEverywhere oneHeaderCrates oneHeaderReader 1
      ((requestWith [⟨"k", [7]⟩] 9).outbound 1 1) := by
  refine (application_data_iff oneHeader_readsBack newService (requestWith [⟨"k", [7]⟩] 9) 0 true
    (List.mem_singleton_self _)).mpr ⟨?_, ?_, Or.inl ?_⟩
  · rintro ⟨hcorrId, _⟩
    exact absurd hcorrId (by decide)
  · exact fun h => absurd h (by simp [SendRequest.header, requestWith])
  · exact fun h => absurd h (by simp [SendRequest.header, requestWith])

/-- The reader on the metadata with the message type of a status report. -/
def statusReader : Bytes → Option CborValue :=
  fun _ => some (.map [(.text "message_type", .bytes (asBytes "delivery_status"))])

/-- Requests that are accepted and taken for a termination message, for a topology
update, and at node 3 for a delivery status message. -/
theorem application_data_confused :
    (∃ m ∈ (newService.send (requestWith [⟨"frame_type", asBytes "session_terminate"⟩]
        terminationCorrId) 0 true).outbound,
      m.isTerminationMessage = true) ∧
    (∃ m ∈ (newService.send
        (requestWith [⟨"frame_type", asBytes "topology_update"⟩] 0) 0 true).outbound,
      m.frameType = .topologyUpdate) ∧
    ∃ m ∈ (newService.send
        (requestWith [⟨"message_type", asBytes "delivery_status"⟩] 0) 0 true).outbound,
      ∃ i, hop Crates.standard statusReader m = some i ∧
        incoming 3 (receivedOf i) = .deliveryStatus := by
  refine ⟨⟨_, List.mem_singleton_self _, ?_⟩, ⟨_, List.mem_singleton_self _, ?_⟩,
    _, List.mem_singleton_self _, ?_⟩
  · decide +kernel
  · decide +kernel
  · obtain ⟨bytes, hbuild⟩ := exists_of_isOk (by decide +kernel : (buildDataFrame Crates.standard
      ((requestWith [⟨"message_type", asBytes "delivery_status"⟩] 0).outbound 1 1)).isOk = true)
    obtain ⟨metaRaw, hhop⟩ := hop_eq_some statusReader
      (by decide +kernel) (by decide +kernel) hbuild
    refine ⟨_, hhop, incoming_eq_deliveryStatus.mpr ?_⟩
    -- this reader gives the same for all bytes
    show (readMeta statusReader []).1.lookup "message_type" = _
    decide +kernel

end MeshCore.Grpc
