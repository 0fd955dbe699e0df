import MeshCore.Session.Manager

/-!
# What becomes of an outbound message

`handle_outbound_message` reports its routing decision before it looks for the session of
the next hop, and does not report again. So a message that is forwarded is accounted for
only if that session is there and still receives (`accounted_iff`): without it the message
is gone, and its feedback says that it was forwarded.
-/

namespace MeshCore.Session

open MeshCore.Lib MeshCore.Wire
open MeshCore.Routing

/-- The decision is to forward. -/
def forwards : RoutingDecision → Bool
  | .forward _ => true
  | _ => false

/-- The decision is to drop. -/
def drops : RoutingDecision → Bool
  | .drop _ => true
  | _ => false

/-- An output that settles what becomes of the message: its delivery, its enqueueing on a
channel that still receives, or the report that it was dropped. -/
def ManagerOutput.settles (isOpen : Channel → Bool) (message : OutboundMessage)
    (msgId : UInt64) : ManagerOutput → Bool
  | .send messageTx m => isOpen messageTx && decide (m = message)
  | .deliver m => decide (m = message.delivered)
  | .feedback f => decide (f.msgId = msgId) && drops f.decision
  | .receivedTopology _ => false

/-- The outputs account for the message: exactly one of them settles it, and it is
reported as forwarded only if it is on a channel that still receives. -/
structure Accounted (isOpen : Channel → Bool) (message : OutboundMessage) (msgId : UInt64)
    (outputs : List ManagerOutput) : Prop where
  settled : outputs.countP (ManagerOutput.settles isOpen message msgId) = 1
  reported : ∀ f, .feedback f ∈ outputs → f.msgId = msgId → forwards f.decision →
    ∃ messageTx, isOpen messageTx ∧ .send messageTx message ∈ outputs

/-- If the message has a route, then the hop that is selected for it has a session, whose
channel still receives. -/
def NextHopReceives (isOpen : Channel → Bool) (mgr : SessionManager)
    (message : OutboundMessage) : Prop :=
  ∀ hopSet hop, message.dstNode ≠ mgr.routingTable.localNodeId →
    mgr.routingTable.routes.lookup message.dstNode = some hopSet →
    mgr.routingTable.ecmpSelector.selectHop hopSet message.dstNode message.corrId = some hop →
    ∃ messageTx, mgr.sessions.lookup hop.nodeId = some messageTx ∧ isOpen messageTx

namespace SessionManager

/-- The condition, by the decision. -/
theorem nextHopReceives_iff {isOpen : Channel → Bool} {mgr : SessionManager}
    {message : OutboundMessage} :
    NextHopReceives isOpen mgr message ↔
      ∀ ecmp, mgr.decision message = .forward ecmp →
        ∃ messageTx, mgr.sessions.lookup ecmp.nextHop.nodeId = some messageTx ∧
          isOpen messageTx := by
  constructor
  · intro h ecmp hdecision
    obtain ⟨hlocal, -, hopSet, hop, hroute, hhop, rfl⟩ :=
      RoutingTable.decide_forward_iff.mp hdecision
    exact h hopSet hop hlocal hroute hhop
  · intro h hopSet hop hlocal hroute hhop
    exact h { nextHop := hop, totalHops := hopSet.hops.length, cost := hopSet.cost }
      (RoutingTable.decide_forward_iff.mpr
        ⟨hlocal, (by decide : (64 : UInt8) ≠ 0), hopSet, hop, hroute, hhop, rfl⟩)

/-- What is sent for a message that is forwarded: the report, and the message itself if the
next hop has a session. -/
theorem handleOutboundMessage_forward {mgr : SessionManager} {message : OutboundMessage}
    {msgId : UInt64} {ecmp : EcmpDecision} (hlocal : message.dstNode ≠ mgr.localNodeId)
    (hid : message.msgId = some msgId) (hdecision : mgr.decision message = .forward ecmp) :
    mgr.handleOutboundMessage message
      = .feedback (routingFeedback msgId (.forward ecmp)) ::
          ((mgr.sessions.lookup ecmp.nextHop.nodeId).map fun messageTx =>
            ManagerOutput.send messageTx message).toList := by
  unfold handleOutboundMessage route
  rw [if_neg hlocal, hid, hdecision]
  dsimp only
  cases mgr.sessions.lookup ecmp.nextHop.nodeId with
  | none => rfl
  | some messageTx => rfl

/-- A message that is reported as forwarded, and put on no channel, is not accounted for. -/
theorem not_accounted_forward {isOpen : Channel → Bool} {message : OutboundMessage}
    {msgId : UInt64} {ecmp : EcmpDecision} :
    ¬ Accounted isOpen message msgId [.feedback (routingFeedback msgId (.forward ecmp))] := by
  intro h
  obtain ⟨messageTx, -, hsend⟩ := h.reported _ (List.mem_cons_self ..) rfl rfl
  exact absurd hsend (by simp)

/-- One that is put on a channel is accounted for if that channel still receives. -/
theorem accounted_forward_iff {isOpen : Channel → Bool} {message : OutboundMessage}
    {msgId : UInt64} {ecmp : EcmpDecision} {messageTx : Channel} :
    Accounted isOpen message msgId
        [.feedback (routingFeedback msgId (.forward ecmp)), .send messageTx message] ↔
      isOpen messageTx := by
  constructor
  · intro h
    obtain ⟨tx, hopen, hsend⟩ := h.reported _ (List.mem_cons_self ..) rfl rfl
    obtain rfl : tx = messageTx := by simpa using hsend
    exact hopen
  · intro hopen
    constructor
    · simp [ManagerOutput.settles, routingFeedback, drops, hopen]
    · exact fun f _ _ _ => ⟨messageTx, hopen, by simp⟩

/-- Outputs that report nothing as forwarded account for the message if one of them
settles it. -/
theorem accounted_of_settled {isOpen : Channel → Bool} {message : OutboundMessage}
    {msgId : UInt64} {outputs : List ManagerOutput}
    (hsettled : outputs.countP (ManagerOutput.settles isOpen message msgId) = 1)
    (hforwards : ∀ f, .feedback f ∈ outputs → forwards f.decision = false) :
    Accounted isOpen message msgId outputs := by
  refine ⟨hsettled, ?_⟩
  intro f hf _ hf'
  rw [hforwards f hf] at hf'
  exact absurd hf' (by simp)

/-- **When `handle_outbound_message` accounts for a message**: when it is for the local
node, has no route, or has a next hop that receives. -/
theorem accounted_iff (mgr : SessionManager) (isOpen : Channel → Bool)
    (message : OutboundMessage) (msgId : UInt64) (hid : message.msgId = some msgId) :
    Accounted isOpen message msgId (mgr.handleOutboundMessage message) ↔
      message.dstNode = mgr.localNodeId ∨ NextHopReceives isOpen mgr message := by
  by_cases hlocal : message.dstNode = mgr.localNodeId
  · refine iff_of_true (accounted_of_settled ?_ ?_) (.inl hlocal)
    · simp [handleOutboundMessage, hlocal, ManagerOutput.settles]
    · simp [handleOutboundMessage, hlocal]
  · rw [or_iff_right hlocal, nextHopReceives_iff]
    cases hdecision : mgr.decision message with
    | forward ecmp =>
      rw [handleOutboundMessage_forward hlocal hid hdecision]
      cases hsession : mgr.sessions.lookup ecmp.nextHop.nodeId with
      | none => exact iff_of_false not_accounted_forward (by simp [hsession])
      | some messageTx =>
        refine accounted_forward_iff.trans ?_
        simp [hsession]
    | «local» =>
      refine iff_of_true (accounted_of_settled ?_ ?_) (fun ecmp h => absurd h (by simp))
      · simp [handleOutboundMessage, hlocal, hid, route, hdecision, ManagerOutput.settles,
          routingFeedback, drops]
      · simp [handleOutboundMessage, hlocal, hid, route, hdecision, routingFeedback, forwards]
    | drop reason =>
      refine iff_of_true (accounted_of_settled ?_ ?_) (fun ecmp h => absurd h (by simp))
      · simp [handleOutboundMessage, hlocal, hid, route, hdecision, ManagerOutput.settles,
          routingFeedback, drops]
      · simp [handleOutboundMessage, hlocal, hid, route, hdecision, routingFeedback, forwards]

/-- Node 1, which reaches node 2 over its neighbour 2, without a session yet. -/
def routedManager (sessions : HashMap Topology.NodeId Channel) : SessionManager :=
  { localNodeId := 1, sessions
    routingTable := (RoutingTable.new 1 fun _ _ _ => 0).insertRoute 2 ⟨2, 2, 10, 1⟩ }

theorem accounted_iff_session :
    Accounted (fun _ => true) ⟨1, 2, [], ∅, 0, some 7, false⟩ 7
      ((routedManager (AList.insert 2 0 ∅)).handleOutboundMessage
        ⟨1, 2, [], ∅, 0, some 7, false⟩) :=
  (accounted_iff (routedManager (AList.insert 2 0 ∅)) (fun _ => true)
    ⟨1, 2, [], ∅, 0, some 7, false⟩ 7 rfl).mpr <| .inr <| by
      intro hopSet hop _ hroute hhop
      obtain rfl : HopSet.single (NextHop.new 2 10) = hopSet := Option.some.inj hroute
      obtain rfl : NextHop.new 2 10 = hop := Option.some.inj ((selectHop_single ..).symm.trans hhop)
      exact ⟨0, rfl, rfl⟩

/-- The route is there before the session, and the message is reported as forwarded and
put on no channel. -/
theorem forwarded_nowhere :
    ¬ ∀ (mgr : SessionManager) (isOpen : Channel → Bool) (message : OutboundMessage)
      (msgId : UInt64), message.msgId = some msgId →
      Accounted isOpen message msgId (mgr.handleOutboundMessage message) := by
  intro h
  have haccounted := h (routedManager ∅) (fun _ => true) ⟨1, 2, [], ∅, 0, some 7, false⟩ 7 rfl
  rw [handleOutboundMessage_forward (by decide) rfl
    (RoutingTable.decide_single (by decide) (by decide) rfl)] at haccounted
  exact not_accounted_forward haccounted

end SessionManager

end MeshCore.Session
