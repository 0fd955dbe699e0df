import MeshCore.Session.Forwarding
import MeshCore.Session.Manager
import MeshCore.Lib.Runs

/-!
# The TTL of a forwarded message

A DATA frame arrives with a TTL. The session makes an `InboundMessage` of it,
which has no TTL; the manager asks the routing table with a TTL of 64; and
`build_data_frame` makes a new header, with a TTL of 16. So the TTL of the frame
that goes out has nothing to do with the one that came in, and
`FastHeader::decrement_ttl` is never called on the way.

`forwardFrame` composes the four functions at one node. The TTL goes down exactly
when the frame arrived with more than 16, or nothing is sent on
(`ttl_bounds_forwarding_iff`). Where it goes down at every node, a message is forwarded at
most 255 times (`journey_length_le`); two nodes whose tables point at each other
forward one for ever (`ttl_not_decreased`).
-/

namespace MeshCore.Session

open MeshCore.Lib MeshCore.Wire
open MeshCore.Routing

/-! ## One node -/

/-- What a session writes for an outbound message: nothing for a termination
message, which closes it, and nothing when the frame cannot be built. -/
def sessionWrites (crates : Crates) (m : OutboundMessage) : Option Bytes :=
  if m.isTerminationMessage then none
  else
    match buildDataFrame crates m with
    | .ok bytes => some bytes
    | .error _ => none

/-- The frame an output of the manager leads to. -/
def outputFrame (crates : Crates) : ManagerOutput → Option (Channel × Bytes)
  | .send messageTx m => (sessionWrites crates m).map fun bytes => (messageTx, bytes)
  | _ => none

/-- The bytes a node emits for a DATA frame, with the channels they go through.
The event of a received message does not consult the registry. -/
def forwardFrame (crates : Crates) (fromReader : Bytes → Option CborValue) (mgr : SessionManager)
    (frame : Frame) : List (Channel × Bytes) :=
  (mgr.handleSessionEvent ∅ (.messageReceived (inboundOfFrame fromReader frame))).2.filterMap
    (outputFrame crates)

/-- The node sends the frame's message on: the table has a route, the next hop a
session, the message is not taken for a termination message, and its metadata
and the whole frame can be encoded. -/
def SendsOn (crates : Crates) (fromReader : Bytes → Option CborValue) (mgr : SessionManager)
    (frame : Frame) : Prop :=
  let m := (inboundOfFrame fromReader frame).forwarded
  m.dstNode ≠ mgr.localNodeId ∧ m.isTerminationMessage = false ∧
    (∃ ecmp messageTx, mgr.decision m = .forward ecmp ∧
      mgr.sessions.lookup ecmp.nextHop.nodeId = some messageTx) ∧
    ∃ metaRaw, MetaBuilder.build crates ⟨m.metaMap⟩ = .ok metaRaw ∧
      (m.frame metaRaw).encodedSize ≤ maxDataFrame

/-- The TTL goes down: every frame the node emits has a smaller one, and nothing
is emitted when the TTL was 1. -/
def TtlDecreases (crates : Crates) (fromReader : Bytes → Option CborValue) (mgr : SessionManager)
    (frame : Frame) : Prop :=
  (∀ out ∈ forwardFrame crates fromReader mgr frame, ∃ g,
    FrameDecoder.new.decode out.2 = (.ok (some g), []) ∧ g.fast.ttl < frame.fast.ttl) ∧
  (frame.fast.ttl = 1 → forwardFrame crates fromReader mgr frame = [])

/-- What comes out when the outputs of `handle_outbound_message` reach their
sessions. -/
theorem forwardFrame_eq (crates : Crates) (fromReader : Bytes → Option CborValue)
    (mgr : SessionManager) (frame : Frame) :
    forwardFrame crates fromReader mgr frame =
      let m := (inboundOfFrame fromReader frame).forwarded
      if m.dstNode = mgr.localNodeId then []
      else
        match mgr.decision m with
        | .forward ecmp =>
          match mgr.sessions.lookup ecmp.nextHop.nodeId with
          | some messageTx =>
            ((sessionWrites crates m).map fun bytes => (messageTx, bytes)).toList
          | none => []
        | _ => [] := by
  dsimp only
  unfold forwardFrame
  rw [SessionManager.outputs_messageReceived]
  generalize inboundOfFrame fromReader frame = message
  by_cases hlocal : message.dstNode = mgr.localNodeId
  · rw [if_pos hlocal, if_pos (show message.forwarded.dstNode = mgr.localNodeId from hlocal)]
    rfl
  · rw [if_neg hlocal, if_neg (show message.forwarded.dstNode ≠ mgr.localNodeId from hlocal)]
    -- the feedback is no frame
    have hfeedback : ((message.msgId.map fun msgId => ManagerOutput.feedback
        (routingFeedback msgId (mgr.decision message.forwarded))).toList).filterMap
          (outputFrame crates) = [] := by
      cases message.msgId with
      | none => rfl
      | some msgId => rfl
    rw [List.filterMap_append, hfeedback, List.nil_append]
    unfold SessionManager.route
    cases mgr.decision message.forwarded with
    | forward ecmp =>
      dsimp only
      cases mgr.sessions.lookup ecmp.nextHop.nodeId with
      | none => rfl
      | some messageTx =>
        dsimp only [List.filterMap, outputFrame]
        cases sessionWrites crates message.forwarded with
        | none => rfl
        | some bytes => rfl
    | «local» => rfl
    | drop reason => rfl

/-- A frame that is sent on is a frame of the message, with a new header. -/
theorem SendsOn.forwardFrame {crates : Crates} {fromReader : Bytes → Option CborValue}
    {mgr : SessionManager} {frame : Frame} (h : SendsOn crates fromReader mgr frame) :
    ∃ messageTx bytes metaRaw, forwardFrame crates fromReader mgr frame = [(messageTx, bytes)] ∧
      MetaBuilder.build crates ⟨(inboundOfFrame fromReader frame).forwarded.metaMap⟩ = .ok metaRaw ∧
      FrameDecoder.new.decode bytes
        = (.ok (some ((inboundOfFrame fromReader frame).forwarded.frame metaRaw)), []) := by
  obtain ⟨hlocal, hterm, ⟨ecmp, messageTx, hdecision, hsession⟩, metaRaw, hmeta, hsize⟩ := h
  have hbuild : buildDataFrame crates (inboundOfFrame fromReader frame).forwarded
      = .ok ((inboundOfFrame fromReader frame).forwarded.frame metaRaw).bytes := by
    rw [buildDataFrame_eq, hmeta]
    exact if_neg (Nat.not_lt.mpr hsize)
  obtain ⟨metaRaw', hmeta', hdecode⟩ := decode_buildDataFrame hbuild
  refine ⟨messageTx, _, metaRaw', ?_, hmeta', hdecode⟩
  rw [forwardFrame_eq]
  dsimp only
  rw [if_neg hlocal, hdecision]
  dsimp only
  rw [hsession]
  unfold sessionWrites
  rw [if_neg (by rw [hterm]; simp), hbuild]
  rfl

/-- What is not sent on is not emitted. -/
theorem forwardFrame_of_not_sendsOn {crates : Crates} {fromReader : Bytes → Option CborValue}
    {mgr : SessionManager} {frame : Frame} (h : ¬ SendsOn crates fromReader mgr frame) :
    forwardFrame crates fromReader mgr frame = [] := by
  rw [forwardFrame_eq]
  dsimp only
  split
  next => rfl
  next hlocal =>
    split
    next ecmp hdecision =>
      split
      next messageTx hsession =>
        -- the session has the message, so it is the frame that is not built
        unfold sessionWrites
        split
        next => rfl
        next hterm =>
          rw [buildDataFrame_eq]
          split
          next bytes hok =>
            split at hok
            next => exact absurd hok (by simp)
            next metaRaw hmeta =>
              split at hok
              next => exact absurd hok (by simp)
              next hsize =>
                exact absurd ⟨hlocal, Bool.eq_false_iff.mpr hterm,
                  ⟨ecmp, messageTx, hdecision, hsession⟩, metaRaw, hmeta, Nat.not_lt.mp hsize⟩ h
          next => rfl
      next => rfl
    next => rfl

/-- When the TTL goes down at a node. -/
theorem ttlDecreases_iff (crates : Crates) (fromReader : Bytes → Option CborValue)
    (mgr : SessionManager) (frame : Frame) :
    TtlDecreases crates fromReader mgr frame ↔
      16 < frame.fast.ttl ∨ ¬ SendsOn crates fromReader mgr frame := by
  by_cases hsends : SendsOn crates fromReader mgr frame
  · obtain ⟨messageTx, bytes, metaRaw, hout, _, hdecode⟩ := hsends.forwardFrame
    unfold TtlDecreases
    rw [hout]
    constructor
    · rintro ⟨hall, _⟩
      obtain ⟨g, hdecode', hlt⟩ := hall (messageTx, bytes) (List.mem_singleton_self _)
      have hg : (inboundOfFrame fromReader frame).forwarded.frame metaRaw = g := by
        simpa using hdecode.symm.trans hdecode'
      rw [← hg] at hlt
      exact Or.inl hlt
    · intro hcond
      have hlt : 16 < frame.fast.ttl := hcond.resolve_right (fun hn => hn hsends)
      refine ⟨?_, ?_⟩
      · intro out hmem
        rw [List.mem_singleton.mp hmem]
        exact ⟨_, hdecode, hlt⟩
      · intro hone
        rw [hone] at hlt
        exact absurd hlt (by decide)
  · unfold TtlDecreases
    rw [forwardFrame_of_not_sendsOn hsends]
    refine ⟨fun _ => Or.inr hsends, fun _ => ⟨?_, fun _ => rfl⟩⟩
    exact fun out hmem => absurd hmem List.not_mem_nil

/-! ## From node to node -/

/-- The node with this manager emits the one frame for the other. -/
def Forwards (crates : Crates) (fromReader : Bytes → Option CborValue) (mgr : SessionManager)
    (f g : Frame) : Prop :=
  ∃ out ∈ forwardFrame crates fromReader mgr f, FrameDecoder.new.decode out.2 = (.ok (some g), [])

/-- A message travels: at each stop a node forwards the frame it got, and the
frame it emits goes to the next. Nothing is assumed of the nodes' tables. -/
def Journey (crates : Crates) (fromReader : Bytes → Option CborValue) :
    Frame → List (SessionManager × Frame) → Prop :=
  Along (fun _ stop => stop.2) fun f stop => Forwards crates fromReader stop.1 f stop.2

/-- Where the TTL goes down at every stop, it bounds their number. -/
theorem journey_length_le {crates : Crates} {fromReader : Bytes → Option CborValue} {f : Frame}
    {stops : List (SessionManager × Frame)} (h : Journey crates fromReader f stops)
    (httl : Along (fun _ stop => stop.2)
      (fun f stop => TtlDecreases crates fromReader stop.1 f) f stops) :
    stops.length ≤ f.fast.ttl.toNat := by
  induction stops generalizing f with
  | nil => exact Nat.zero_le _
  | cons stop stops ih =>
    obtain ⟨⟨out, hout, hdecode⟩, hrest⟩ := h
    obtain ⟨⟨hall, _⟩, httl'⟩ := httl
    obtain ⟨g, hdecode', hlt⟩ := hall out hout
    have hg : g = stop.2 := by simpa using hdecode'.symm.trans hdecode
    rw [hg] at hlt
    have hle : stops.length ≤ stop.2.fast.ttl.toNat := ih hrest httl'
    have hlt' := UInt8.lt_iff_toNat_lt.mp hlt
    rw [List.length_cons]
    omega

/-- **When the TTL bounds forwarding.** At a node the TTL of a DATA frame goes
down, and a frame with a TTL of 1 goes no further, exactly when it arrived with
more than 16 or the node does not send the message on. Where this is so at every
stop of a message, it is forwarded at most 255 times. -/
theorem ttl_bounds_forwarding_iff (crates : Crates) (fromReader : Bytes → Option CborValue) :
    (∀ (mgr : SessionManager) (frame : Frame), TtlDecreases crates fromReader mgr frame ↔
      16 < frame.fast.ttl ∨ ¬ SendsOn crates fromReader mgr frame) ∧
    ∀ (frame : Frame) (stops : List (SessionManager × Frame)),
      Journey crates fromReader frame stops →
      Along (fun _ stop => stop.2) (fun f stop =>
        16 < f.fast.ttl ∨ ¬ SendsOn crates fromReader stop.1 f) frame stops →
      stops.length ≤ 255 := by
  refine ⟨ttlDecreases_iff crates fromReader, ?_⟩
  intro frame stops hjourney hcond
  have hle := journey_length_le hjourney
    (hcond.mono fun (f : Frame) (stop : SessionManager × Frame) =>
      (ttlDecreases_iff crates fromReader stop.1 f).mpr)
  have hlt := frame.fast.ttl.toNat_lt
  omega

/-- A node whose table sends everything for node 3 to `nextHop`, over its one
session. -/
def loopManager (localNodeId nextHop : UInt64) : SessionManager :=
  { localNodeId
    routingTable :=
      { RoutingTable.new localNodeId (fun _ _ _ => 0) with
        routes := AList.insert 3 (HopSet.single (NextHop.new nextHop 100)) ∅ }
    sessions := AList.insert nextHop 0 ∅ }

/-- A DATA frame for node 3 with an empty metadata map. -/
def loopFrame (ttl : UInt8) : Frame :=
  Frame.new { FastHeader.new .data 4 3 0 with ttl } [0xA0] [1]

theorem loop_sendsOn {localNodeId : UInt64} (hlocal : 3 ≠ localNodeId) (nextHop : UInt64)
    (ttl : UInt8) :
    SendsOn Crates.standard (fun _ => some (.map [])) (loopManager localNodeId nextHop)
      (loopFrame ttl) := by
  have hsize : 4 + 48 + 0 + 4 + 1 + 1 ≤ maxDataFrame := by decide
  refine ⟨hlocal, rfl, ⟨⟨NextHop.new nextHop 100, 1, 100⟩, 0, ?_, AList.lookup_insert _⟩, [0xA0],
    rfl, hsize⟩
  exact RoutingTable.decide_single hlocal (by decide : (64 : UInt8) ≠ 0) (AList.lookup_insert _)

/-- Each of the two nodes passes the frame on as it is. -/
theorem loop_forwards {localNodeId : UInt64} (hlocal : 3 ≠ localNodeId) (nextHop : UInt64) :
    Forwards Crates.standard (fun _ => some (.map [])) (loopManager localNodeId nextHop)
      (loopFrame 16) (loopFrame 16) := by
  obtain ⟨messageTx, bytes, metaRaw, hout, hmeta, hdecode⟩ :=
    (loop_sendsOn hlocal nextHop 16).forwardFrame
  have hraw : metaRaw = [0xA0] := (Except.ok.inj hmeta).symm
  subst hraw
  exact ⟨(messageTx, bytes), hout ▸ List.mem_singleton_self _, hdecode⟩

/-- Node 1 sends a frame that arrived with a TTL of 1 on with a TTL of 16, and
nodes 1 and 2, each of which has the other as its next hop to node 3, forward a
message more than 255 times. -/
theorem ttl_not_decreased :
    ¬ TtlDecreases Crates.standard (fun _ => some (.map [])) (loopManager 1 2) (loopFrame 1) ∧
    ∃ stops : List (SessionManager × Frame), 255 < stops.length ∧
      Journey Crates.standard (fun _ => some (.map [])) (loopFrame 16) stops := by
  constructor
  · rw [ttlDecreases_iff]
    rintro (hlt | hnot)
    · exact absurd hlt (by decide)
    · exact hnot (loop_sendsOn (by decide) 2 1)
  · have hloop : ∀ n, Journey Crates.standard (fun _ => some (.map [])) (loopFrame 16)
        (List.replicate n [(loopManager 1 2, loopFrame 16),
          (loopManager 2 1, loopFrame 16)]).flatten := by
      intro n
      induction n with
      | zero => trivial
      | succ n ih => exact ⟨loop_forwards (by decide) 2, loop_forwards (by decide) 1, ih⟩
    refine ⟨_, ?_, hloop 128⟩
    rw [List.length_flatten, List.map_replicate, List.sum_replicate]
    decide

end MeshCore.Session
