import MeshCore.Network.UnderWay
import MeshCore.Network.Served
import MeshCore.Grpc.Effects
import MeshCore.Grpc.Release

/-!
# What a confirmed message has been through

A node shows a message as `Delivered`, or as `WaitingForClientAck`, when a status message
says so. Whoever receives one sees the ID of the message and nothing else of it: that the
message was handed to somebody is a property of the run.

`Backed` says of a message under way what happened before: a status message that confirms a
message was sent when a subscription was handed it, and a message with an ID is the copy of
one that a client sent. It survives every hop (`backed_survives`). `NodeInv` says the same of
the records of a node, and of the messages it may send again. Both are kept by every step
(`ServedMesh.Inv.step`), and a record that confirms a message leads back to the subscription
that was handed it, and to the client that sent it (`confirmed_means_handed`).
-/

namespace MeshCore.Network

open MeshCore.Lib MeshCore.Wire MeshCore.Session MeshCore.Grpc
open MeshCore.Topology (NodeId)
open MeshCore.Routing

/-! ## What a data service sends -/

section Events

variable {toVec : DeliveryStatusMessage → Option Bytes}
variable {fromSlice : Bytes → Option DeliveryStatusMessage}

/-- A status message. -/
def IsStatus (m : OutboundMessage) : Prop :=
  m.headers.lookup "message_type" = some (asBytes "delivery_status")

/-- The status says that a subscriber has the message. -/
def Confirms (status : MessageStatus) : Prop :=
  status = .delivered ∨ status = .waitingForClientAck

instance (status : MessageStatus) : Decidable (Confirms status) :=
  inferInstanceAs (Decidable (_ ∨ _))

/-- The message with this ID from a node was handed to a subscription, at this node. -/
def HandedAt (handed : List Handing) (node src : NodeId) (msgId : UInt64) : Prop :=
  msgId ≠ 0 ∧ ∃ h ∈ handed, h.node = node ∧ h.message.srcNode = src ∧ h.message.msgId = msgId

/-- What the message keeps of another on any number of hops. -/
structure CopyOf (m₀ m : OutboundMessage) : Prop where
  srcNode : m.srcNode = m₀.srcNode
  dstNode : m.dstNode = m₀.dstNode
  payload : m.payload = m₀.payload
  corrId : m.corrId = m₀.corrId
  msgId : m.msgId = m₀.msgId

/-- A message is backed by what happened: a status message that confirms a message, by a
subscription that was handed it, and a message with an ID by a client's request. -/
structure Backed (fromSlice : Bytes → Option DeliveryStatusMessage)
    (sent : List OutboundMessage) (handed : List Handing) (m : OutboundMessage) : Prop where
  status : IsStatus m → ∀ d status, fromSlice m.payload = some d →
    DataNode.statusOfCode d.status = some status → Confirms status →
      HandedAt handed m.srcNode m.dstNode d.originalMsgId
  corrId : IsStatus m → m.corrId = 0
  message : m.msgId ≠ none → ∃ m₀ ∈ sent, CopyOf m₀ m

theorem Backed.mono {sent sent' : List OutboundMessage} {handed handed' : List Handing}
    {m : OutboundMessage} (h : Backed fromSlice sent handed m) (hsent : sent ⊆ sent')
    (hhanded : handed ⊆ handed') : Backed fromSlice sent' handed' m where
  status := by
    intro hm d status hd hcode hconfirms
    obtain ⟨hid, at_, hmem, hat⟩ := h.status hm d status hd hcode hconfirms
    exact ⟨hid, at_, hhanded hmem, hat⟩
  corrId := h.corrId
  message := by
    intro hm
    obtain ⟨m₀, hmem, hcopy⟩ := h.message hm
    exact ⟨m₀, hsent hmem, hcopy⟩

/-- A message that a client of the node has sent. -/
def SentAt (sent : List OutboundMessage) (n : NodeId) (m : OutboundMessage) : Prop :=
  m ∈ sent ∧ m.srcNode = n

/-- What the service of a node puts on its outbound channel: messages of its clients, and
status messages. -/
structure Emits (fromSlice : Bytes → Option DeliveryStatusMessage)
    (sent : List OutboundMessage) (handed : List Handing) (n : NodeId) (m : OutboundMessage) :
    Prop where
  backed : Backed fromSlice sent handed m
  srcNode : m.srcNode = n
  own : m ∈ sent ∨ m.corrId = 0

/-- **A hop over a socket keeps a message backed.** -/
theorem backed_survives {env : SessionEnv} (hread : ReadsBack env.crates env.fromReader)
    (sent : List OutboundMessage) (handed : List Handing) :
    SurvivesHop env (Backed fromSlice sent handed) := by
  intro m metaRaw h _ hmeta i hi
  obtain ⟨-, rfl⟩ := message_of_frame hi
  have hheader := readMeta_lookup
    (parseMeta_build hread hmeta (metaMap_plain m) (metaMap_sorted m)) "message_type"
  constructor
  · intro hstatus
    exact h.status (hheader.symm.trans hstatus)
  · intro hstatus
    exact h.corrId (hheader.symm.trans hstatus)
  · intro hid
    -- an ID that is read is the one that was written
    have hread : (inboundOfFrame env.fromReader (m.frame metaRaw)).forwarded.msgId
        = if m.msgId.getD 0 ≠ 0 then some (m.msgId.getD 0) else none := rfl
    rw [hread] at hid
    have hne : m.msgId.getD 0 ≠ 0 := by
      intro hzero
      exact hid (if_neg fun h => h hzero)
    cases hm : m.msgId with
    | none =>
      rw [hm] at hne
      exact absurd rfl hne
    | some msgId =>
      obtain ⟨m₀, hmem, hcopy⟩ := h.message (by rw [hm]; simp)
      refine ⟨m₀, hmem, hcopy.srcNode, hcopy.dstNode, hcopy.payload, hcopy.corrId, ?_⟩
      rw [hread, if_pos hne, ← hcopy.msgId, hm]
      rfl

/-- What is assumed of `serde_json`: the reader undoes the writer, and nothing can be read
from no bytes. -/
structure JsonReadsBack (toVec : DeliveryStatusMessage → Option Bytes)
    (fromSlice : Bytes → Option DeliveryStatusMessage) : Prop where
  readsBack : ∀ d bytes, toVec d = some bytes → fromSlice bytes = some d
  empty : fromSlice [] = none

/-- A node may emit a status message if the subscription that it speaks of is there. -/
theorem emits_status (hjson : JsonReadsBack toVec fromSlice) {svc : MeshDataService}
    {sent : List OutboundMessage} {handed : List Handing} {src : NodeId} {msgId : UInt64}
    {status : MessageStatus} {text : String} {m : OutboundMessage}
    (hm : svc.deliveryStatusToSource toVec src msgId status text = some m)
    (hhanded : ∀ status', DataNode.statusOfCode status.code = some status' → Confirms status' →
      HandedAt handed svc.nodeId src msgId) : Emits fromSlice sent handed svc.nodeId m := by
  unfold MeshDataService.deliveryStatusToSource at hm
  split at hm
  next => exact absurd hm (by simp)
  next =>
    obtain rfl := Option.some.inj hm
    refine ⟨⟨fun _ d status' hd hcode hconfirms => ?_, fun _ => rfl, fun h => absurd rfl h⟩, rfl,
      .inr rfl⟩
    dsimp only at hd ⊢
    cases hto : toVec { originalMsgId := msgId, status := status.code, statusMessage := text } with
    | none =>
      rw [hto, Option.getD_none, hjson.empty] at hd
      exact absurd hd (by simp)
    | some bytes =>
      rw [hto, Option.getD_some, hjson.readsBack _ _ hto] at hd
      obtain rfl := Option.some.inj hd
      exact hhanded status' hcode hconfirms

/-- What is reported of a message that was handed to somebody, or waits. -/
theorem emits_application (hjson : JsonReadsBack toVec fromSlice) (node : DataNode)
    (sent : List OutboundMessage) (handed : List Handing) (message : Received) :
    ∀ m ∈ (node.handleApplicationMessage toVec message).outbound,
      Emits fromSlice sent (handed ++ handingsOf node.service.nodeId message
        (node.handleApplicationMessage toVec message).handed) node.service.nodeId m := by
  -- a report is backed if it confirms nothing, or somebody was handed the message
  have hreport : ∀ (node' : DataNode) (handed' : List Handing) (status : MessageStatus)
      (text : String), node'.service.nodeId = node.service.nodeId →
      ((∀ status', DataNode.statusOfCode status.code = some status' → ¬ Confirms status') ∨
        ∃ subId, (⟨node.service.nodeId, subId, message⟩ : Handing) ∈ handed') →
      ∀ m ∈ node'.report toVec message status text,
        Emits fromSlice sent handed' node.service.nodeId m := by
    intro node' handed' status text hnode hcases m hm
    unfold DataNode.report at hm
    split at hm
    next => exact absurd hm List.not_mem_nil
    next hid =>
      rw [← hnode]
      refine emits_status hjson (Option.mem_toList.mp hm) fun status' hcode hconfirms => ?_
      rcases hcases with hno | ⟨subId, hmem⟩
      · exact absurd hconfirms (hno status' hcode)
      · exact ⟨hid, _, hmem, hnode.symm, rfl, rfl⟩
  have hwaits : ∀ status', DataNode.statusOfCode MessageStatus.pendingClient.code = some status' →
      ¬ Confirms status' := by
    intro status' hcode
    obtain rfl : MessageStatus.pendingClient = status' := Option.some.inj hcode
    decide
  unfold DataNode.handleApplicationMessage
  split
  next => exact hreport _ _ _ _ rfl (.inl hwaits)
  next =>
    dsimp only
    split
    next hpos =>
      obtain ⟨subId, hsub⟩ := List.exists_mem_of_length_pos hpos
      have hmem : (⟨node.service.nodeId, subId, message⟩ : Handing) ∈
          handed ++ handingsOf node.service.nodeId message (node.deliveryQueue.deliver message).2 :=
        List.mem_append_right _ (List.mem_map.mpr ⟨subId, hsub, rfl⟩)
      split
      next => exact hreport _ _ _ _ rfl (.inr ⟨subId, hmem⟩)
      next => exact hreport _ _ _ _ rfl (.inr ⟨subId, hmem⟩)
    next => exact hreport _ _ _ _ rfl (.inl hwaits)

end Events

/-! ## What a data service keeps -/

/-- Some subscription was handed the message with this ID from a node. -/
def HandedOn (handed : List Handing) (src : NodeId) (msgId : UInt64) : Prop :=
  ∃ node, HandedAt handed node src msgId

/-- The service of a node sends its clients' messages only, and a record confirms a message
only if it was handed to somebody. -/
structure NodeInv (sent : List OutboundMessage) (handed : List Handing) (n : NodeId)
    (node : DataNode) : Prop where
  nodeId : node.service.nodeId = n
  pending : ∀ msgId queued, node.pendingMessages.lookup msgId = some queued →
    SentAt sent n queued.message
  inHand : ∀ msgId queued, node.retryPass.inHand = some (msgId, queued) →
    SentAt sent n queued.message
  records : ∀ msgId record, node.messageTracker.lookup msgId = some record →
    Confirms record.status → HandedOn handed n msgId

theorem FreshNode.inv {n : NodeId} {node : DataNode} (h : FreshNode n node)
    (sent : List OutboundMessage) (handed : List Handing) : NodeInv sent handed n node where
  nodeId := h.nodeId
  pending := fun msgId queued hqueued => absurd ((h.unpended msgId).symm.trans hqueued) (by simp)
  inHand := fun msgId queued hqueued => absurd (h.inHand.symm.trans hqueued) (by simp)
  records := fun msgId record hrecord => absurd ((h.untracked msgId).symm.trans hrecord) (by simp)

theorem HandedOn.mono {handed handed' : List Handing} {src : NodeId} {msgId : UInt64}
    (h : HandedOn handed src msgId) (hhanded : handed ⊆ handed') : HandedOn handed' src msgId := by
  obtain ⟨node, hid, at_, hmem, hat⟩ := h
  exact ⟨node, hid, at_, hhanded hmem, hat⟩

theorem SentAt.mono {sent sent' : List OutboundMessage} {n : NodeId} {m : OutboundMessage}
    (h : SentAt sent n m) (hsent : sent ⊆ sent') : SentAt sent' n m :=
  ⟨hsent h.1, h.2⟩

theorem NodeInv.mono {sent sent' : List OutboundMessage} {handed handed' : List Handing}
    {n : NodeId} {node : DataNode} (h : NodeInv sent handed n node) (hsent : sent ⊆ sent')
    (hhanded : handed ⊆ handed') : NodeInv sent' handed' n node where
  nodeId := h.nodeId
  pending := fun msgId queued hqueued => (h.pending msgId queued hqueued).mono hsent
  inHand := fun msgId queued hqueued => (h.inHand msgId queued hqueued).mono hsent
  records := fun msgId record hrecord hconfirms =>
    (h.records msgId record hrecord hconfirms).mono hhanded

/-- A record that an event leaves was there before, or has the status the event wrote. -/
theorem recordStep_cases {status : Option MessageStatus} {before after : Option MessageRecord}
    (h : RecordStep status before after) {record : MessageRecord} (hafter : after = some record) :
    before = some record ∨ status = some record.status := by
  cases status with
  | none => exact .inl (h record hafter)
  | some status =>
    obtain ⟨statusMessage, now, hmap⟩ := h
    obtain ⟨old, -, rfl⟩ := Option.map_eq_some_iff.mp (hmap.symm.trans hafter)
    exact .inr rfl

/-- Only a status message confirms a message. -/
theorem not_confirms_written {fromSlice : Bytes → Option DeliveryStatusMessage} {msgId : UInt64}
    {node : DataNode} {event : DataNode.StatusEvent} {status : MessageStatus}
    (hevent : ∀ message now, event ≠ .incoming message now)
    (h : written fromSlice msgId node event = some status) : ¬ Confirms status := by
  cases event with
  | incoming message now => exact absurd rfl (hevent message now)
  | routingFeedback feedback now =>
    replace h : writtenByFeedback msgId feedback = some status := h
    unfold writtenByFeedback at h
    split at h
    next reason _ =>
      split at h
      · rw [← Option.some.inj h]
        cases reason with
        | _ => decide
      · exact absurd h (by simp)
    next => exact absurd h (by simp)
  | ackMessage ack now =>
    replace h : (if ack.msgId = msgId then some ack.status else none) = some status := h
    split at h
    · rw [← Option.some.inj h]
      unfold Ack.status
      split
      · decide
      · decide
    · exact absurd h (by simp)
  | retryTick now => exact absurd h (by simp [written])
  | retryTake now =>
    replace h : writtenByTake msgId node = some status := h
    unfold writtenByTake at h
    split at h
    · split at h
      · obtain ⟨queued, -, rfl⟩ := Option.map_eq_some_iff.mp h
        split
        · decide
        · decide
      · exact absurd h (by simp)
    · exact absurd h (by simp)
  | retrySend now isOpen =>
    replace h : writtenBySend msgId node isOpen = some status := h
    unfold writtenBySend at h
    split at h
    · split at h
      · exact absurd h (by simp)
      · split at h
        · rw [← Option.some.inj h]
          decide
        · exact absurd h (by simp)
    · exact absurd h (by simp)
  | cleanup now => exact absurd h (by simp [written])

section Steps

variable {toVec : DeliveryStatusMessage → Option Bytes}
variable {fromSlice : Bytes → Option DeliveryStatusMessage}
variable {sent : List OutboundMessage} {handed : List Handing} {n : NodeId} {node : DataNode}

/-- A node may emit a message of its clients. -/
theorem emits_sent {m : OutboundMessage} (hm : SentAt sent n m) (hplain : ¬ IsStatus m) :
    Emits fromSlice sent handed n m where
  backed :=
    { status := fun hstatus => absurd hstatus hplain
      corrId := fun hstatus => absurd hstatus hplain
      message := fun _ => ⟨m, hm.1, rfl, rfl, rfl, rfl, rfl⟩ }
  srcNode := hm.2
  own := .inl hm.1

/-- An acknowledgment confirms nothing at the sender. -/
theorem emits_ack (hjson : JsonReadsBack toVec fromSlice) (svc : MeshDataService) (ack : Ack)
    (now : Nat) {m : OutboundMessage} (hm : (svc.ackMessage toVec ack now).2 = some m) :
    Emits fromSlice sent handed svc.nodeId m := by
  refine emits_status hjson hm fun status hcode => ?_
  rw [statusOfCode_ack] at hcode
  exact absurd hcode (by simp)

/-- The messages a node may send again are its clients'. -/
def Own (sent : List OutboundMessage) (n : NodeId) (node : DataNode) : Prop :=
  (∀ msgId queued, node.pendingMessages.lookup msgId = some queued →
    SentAt sent n queued.message) ∧
  ∀ msgId queued, node.retryPass.inHand = some (msgId, queued) → SentAt sent n queued.message

theorem Own.thin {node' : DataNode} (h : Own sent n node) (hthin : Thinned node node') :
    Own sent n node' :=
  ⟨fun msgId queued hqueued => h.1 msgId queued (hthin.pending msgId queued hqueued),
    fun msgId queued hqueued => h.2 msgId queued (hthin.inHand _ hqueued)⟩

theorem Own.retryTake (h : Own sent n node) (now : Nat) : Own sent n (node.retryTake now) := by
  rcases retryTake_cases node now with ⟨hservice, hinHand, -⟩ |
    ⟨msgId, todo, queued, status, text, -, -, hqueued, hpending, -, hinHand⟩
  · refine ⟨fun msgId queued hqueued => ?_, fun msgId queued htaken => h.2 _ _ (hinHand _ htaken)⟩
    unfold DataNode.pendingMessages at hqueued
    rw [hservice] at hqueued
    exact h.1 msgId queued hqueued
  · constructor
    · intro msgId' queued' hqueued'
      rw [hpending, HashMap.lookup_erase_ite] at hqueued'
      split at hqueued'
      · exact absurd hqueued' (by simp)
      · exact h.1 msgId' queued' hqueued'
    · intro msgId' queued' htaken
      rcases hinHand with hnone | ⟨-, again, hagain, hmessage⟩
      · exact absurd (hnone.symm.trans htaken) (by simp)
      · obtain ⟨-, rfl⟩ := Prod.mk.inj (Option.some.inj (hagain.symm.trans htaken))
        rw [hmessage]
        exact h.1 msgId queued hqueued

theorem Own.retrySend (h : Own sent n node) (now : Nat) (isOpen : Bool) :
    Own sent n (node.retrySend now isOpen).1 ∧
      ∀ m ∈ (node.retrySend now isOpen).2, SentAt sent n m := by
  rcases retrySend_cases node now isOpen with ⟨-, hsame⟩ | ⟨msgId, queued, htaken, hnone, hrest⟩
  · rw [hsame]
    exact ⟨h, fun m hm => absurd hm List.not_mem_nil⟩
  · have hown := h.2 msgId queued htaken
    have hinHand : ∀ msgId' queued',
        (node.retrySend now isOpen).1.retryPass.inHand = some (msgId', queued') →
        SentAt sent n queued'.message :=
      fun msgId' queued' htaken' => absurd (hnone.symm.trans htaken') (by simp)
    rcases hrest with ⟨hpending, -, hout⟩ | ⟨hpending, -, hout⟩
    · refine ⟨⟨fun msgId' queued' hqueued' => ?_, hinHand⟩, fun m hm => ?_⟩
      · rw [hpending, HashMap.lookup_insert_ite] at hqueued'
        split at hqueued'
        · rw [← Option.some.inj hqueued']
          exact hown
        · exact h.1 msgId' queued' hqueued'
      · rw [hout] at hm
        rw [List.mem_singleton.mp hm]
        exact hown
    · refine ⟨⟨fun msgId' queued' hqueued' => ?_, hinHand⟩, fun m hm => ?_⟩
      · rw [hpending] at hqueued'
        exact h.1 msgId' queued' hqueued'
      · rw [hout] at hm
        exact absurd hm List.not_mem_nil

/-- **What an event other than an arrival does at a node.** -/
theorem NodeInv.statusStep (hjson : JsonReadsBack toVec fromSlice)
    (h : NodeInv sent handed n node) (hsent : ∀ m ∈ sent, ¬ IsStatus m)
    {event : DataNode.StatusEvent} (hevent : ∀ message now, event ≠ .incoming message now) :
    NodeInv sent handed n (node.statusStep toVec fromSlice event).node ∧
      ∀ m ∈ (node.statusStep toVec fromSlice event).outbound,
        Emits fromSlice sent handed n m := by
  have hrecords : ∀ msgId record,
      (node.statusStep toVec fromSlice event).node.messageTracker.lookup msgId = some record →
      Confirms record.status → HandedOn handed n msgId := by
    intro msgId record hrecord hconfirms
    rcases recordStep_cases (record_statusStep toVec fromSlice msgId node event) hrecord with
      hbefore | hwritten
    · exact h.records msgId record hbefore hconfirms
    · exact absurd hconfirms (not_confirms_written hevent hwritten)
  have hnode := (statusStep_nodeId toVec fromSlice node event).trans h.nodeId
  have hown : Own sent n node := ⟨h.pending, h.inHand⟩
  have hinv : Own sent n (node.statusStep toVec fromSlice event).node →
      NodeInv sent handed n (node.statusStep toVec fromSlice event).node :=
    fun hown' => ⟨hnode, hown'.1, hown'.2, hrecords⟩
  cases event with
  | incoming message now => exact absurd rfl (hevent message now)
  | retryTake now =>
    exact ⟨hinv (hown.retryTake now), fun m hm => absurd hm List.not_mem_nil⟩
  | retrySend now isOpen =>
    obtain ⟨hown', hout⟩ := hown.retrySend now isOpen
    exact ⟨hinv hown', fun m hm => emits_sent (hout m hm) (hsent m (hout m hm).1)⟩
  | ackMessage ack now =>
    refine ⟨hinv (hown.thin (thinned_statusStep toVec fromSlice node _ rfl).1), fun m hm => ?_⟩
    rw [← h.nodeId]
    exact emits_ack hjson node.service ack now (Option.mem_toList.mp hm)
  | _ =>
    exact ⟨hinv (hown.thin (thinned_statusStep toVec fromSlice node _ rfl).1),
      fun m hm => absurd hm List.not_mem_nil⟩

/-- A record that is new does not confirm anything, if its status does not. -/
theorem tracked_record {svc : MeshDataService} {req : SendRequest} {status : MessageStatus}
    {text : String} {now : Nat} (hstatus : ¬ Confirms status) {msgId : UInt64}
    {record : MessageRecord}
    (h : (svc.tracked req status text now).messageTracker.lookup msgId = some record) :
    svc.messageTracker.lookup msgId = some record ∨ ¬ Confirms record.status := by
  replace h := (HashMap.lookup_insert_ite svc.messageTracker svc.nextId msgId _).symm.trans h
  split at h
  · rw [← Option.some.inj h]
    exact .inr hstatus
  · exact .inl h

/-- A new record does not confirm anything. -/
theorem send_record (svc : MeshDataService) (req : SendRequest) (now : Nat) (isOpen : Bool)
    {msgId : UInt64} {record : MessageRecord}
    (h : (svc.send req now isOpen).service.messageTracker.lookup msgId = some record) :
    svc.messageTracker.lookup msgId = some record ∨ ¬ Confirms record.status := by
  rcases svc.send_outcomes req now isOpen with ⟨-, text, hsend⟩ | ⟨text, hsend⟩ |
    ⟨-, -, text, hsend⟩ | ⟨-, -, text, hsend⟩ | ⟨queued, -, hsend⟩
  · rw [hsend] at h
    exact .inl h
  · rw [hsend] at h
    exact tracked_record (by decide : ¬ Confirms .undeliverable) h
  · rw [hsend] at h
    exact tracked_record (by decide : ¬ Confirms .queued) h
  · rw [hsend] at h
    rcases recordStep_cases (overwritten_update _ svc.nextId msgId .undeliverable text
      now).recordStep h with hbefore | hwritten
    · exact tracked_record (by decide : ¬ Confirms .queued) hbefore
    · split at hwritten
      · rw [← Option.some.inj hwritten]
        exact .inr (by decide)
      · exact absurd hwritten (by simp)
  · rw [hsend] at h
    exact tracked_record (by decide : ¬ Confirms .queued) h

/-- What a client's call of `send` does at a node. -/
theorem NodeInv.send (h : NodeInv sent handed n node) (req : SendRequest) (now : Nat)
    (isOpen : Bool) :
    NodeInv (sent ++ (node.service.send req now isOpen).outbound) handed n
      { node with service := (node.service.send req now isOpen).service } := by
  have hgrows : sent ⊆ sent ++ (node.service.send req now isOpen).outbound :=
    List.subset_append_left ..
  refine ⟨(send_nodeId node.service req now isOpen).trans h.nodeId, ?_,
    fun msgId queued htaken => (h.inHand msgId queued htaken).mono hgrows, ?_⟩
  · intro msgId queued hqueued
    replace hqueued : (node.service.send req now isOpen).service.messageQueue.pendingMessages.lookup
      msgId = some queued := hqueued
    rcases send_cases node.service req now isOpen with ⟨hservice, -⟩ |
      ⟨-, -, -, ⟨hqueue, -⟩ | ⟨-, sent', hpending, -, hout⟩⟩
    · rw [hservice] at hqueued
      exact (h.pending msgId queued hqueued).mono hgrows
    · rw [hqueue] at hqueued
      exact (h.pending msgId queued hqueued).mono hgrows
    · rw [hpending, HashMap.lookup_insert_ite] at hqueued
      split at hqueued
      · have hmem : sent'.message ∈ (node.service.send req now isOpen).outbound := by
          rw [hout]
          exact List.mem_singleton_self _
        rw [← Option.some.inj hqueued]
        refine ⟨List.mem_append_right _ hmem, ?_⟩
        rw [send_outbound hmem]
        exact h.nodeId
      · exact (h.pending msgId queued hqueued).mono hgrows
  · intro msgId record hrecord hconfirms
    rcases send_record node.service req now isOpen hrecord with hbefore | hnot
    · exact h.records msgId record hbefore hconfirms
    · exact absurd hconfirms hnot

/-- What a client's call of `send_with_status_stream` does at a node. -/
theorem NodeInv.stream (h : NodeInv sent handed n node) (req : SendRequest) (now : Nat)
    (isOpen : Bool) :
    let streamed := node.service.sendWithStatusStream req now isOpen
    NodeInv (sent ++ streamed.outbound) handed n { node with service := streamed.service } ∧
      ∀ m ∈ streamed.outbound, m = req.outbound n node.service.nextId := by
  intro streamed
  have hgrows : sent ⊆ sent ++ streamed.outbound := List.subset_append_left ..
  have hold := h.mono hgrows (List.Subset.refl _)
  have hrecords : ∀ msgId record, (node.service.tracked req .queued
      "Message queued for streaming delivery" now).messageTracker.lookup msgId = some record →
      Confirms record.status → HandedOn handed n msgId := by
    intro msgId record hrecord hconfirms
    rcases tracked_record (by decide : ¬ Confirms .queued) hrecord with hbefore | hnot
    · exact h.records msgId record hbefore hconfirms
    · exact absurd hconfirms hnot
  obtain ⟨outcome, hstream | hstream | hstream | ⟨queued, hmessage, hstream⟩⟩ :=
    sendWithStatusStream_outcomes node.service req now isOpen
  · rw [show streamed = _ from hstream] at hold ⊢
    exact ⟨hold, fun m hm => absurd hm List.not_mem_nil⟩
  · rw [show streamed = _ from hstream] at hold ⊢
    exact ⟨⟨hold.nodeId, hold.pending, hold.inHand, hold.records⟩,
      fun m hm => absurd hm List.not_mem_nil⟩
  · rw [show streamed = _ from hstream] at hold ⊢
    exact ⟨⟨hold.nodeId, hold.pending, hold.inHand, hrecords⟩,
      fun m hm => absurd hm List.not_mem_nil⟩
  · rw [show streamed = _ from hstream] at hold ⊢
    rw [h.nodeId] at hmessage
    refine ⟨⟨hold.nodeId, fun msgId queued' hqueued => ?_, hold.inHand, hrecords⟩,
      fun m hm => (List.mem_singleton.mp hm).trans hmessage⟩
    replace hqueued := (HashMap.lookup_insert_ite node.pendingMessages node.service.nextId msgId
      queued).symm.trans hqueued
    split at hqueued
    · rw [← Option.some.inj hqueued]
      refine ⟨List.mem_append_right _ (List.mem_singleton_self _), ?_⟩
      rw [hmessage]
      rfl
    · exact hold.pending msgId queued' hqueued

/-- A message that arrives is for the node, or nothing is done with it. -/
theorem incoming_cases (nodeId : NodeId) (i : InboundMessage) :
    incoming nodeId (receivedOf i) = .notForUs ∨
      i.dstNode = nodeId ∧
        (incoming nodeId (receivedOf i) = .deliveryStatus ∧ IsStatus i.forwarded ∨
          incoming nodeId (receivedOf i) = .application) := by
  by_cases hdst : i.dstNode = nodeId
  · subst hdst
    right
    refine ⟨rfl, ?_⟩
    by_cases hstatus : IsStatus i.forwarded
    · exact .inl ⟨incoming_eq_deliveryStatus.mpr hstatus, hstatus⟩
    · right
      have hne : incoming i.dstNode (receivedOf i) ≠ .deliveryStatus :=
        fun h => hstatus (incoming_eq_deliveryStatus.mp h)
      unfold incoming at hne ⊢
      rw [if_neg fun h => h rfl] at hne ⊢
      split
      next h =>
        rw [if_pos h] at hne
        exact absurd rfl hne
      next => rfl
  · left
    unfold incoming
    exact if_pos hdst

/-- **What an arrival does at a node.** -/
theorem NodeInv.arrive (hjson : JsonReadsBack toVec fromSlice) (h : NodeInv sent handed n node)
    {i : InboundMessage} (hi : Backed fromSlice sent handed i.forwarded) (now : Nat) :
    let handled := node.handleIncomingMessage toVec fromSlice (receivedOf i) now
    let handed' := handed ++ handingsOf n (receivedOf i) handled.handed
    NodeInv sent handed' n handled.node ∧
      (∀ m ∈ handled.outbound, Emits fromSlice sent handed' n m) ∧
      (handled.handed ≠ [] → i.dstNode = n) := by
  intro handled handed'
  have hgrows : handed ⊆ handed' := List.subset_append_left ..
  rcases incoming_cases node.service.nodeId i with hnot | ⟨hdst, ⟨hin, hstatus⟩ | hin⟩
  · have hsame : handled = ⟨node, [], []⟩ := by
      show node.handleIncomingMessage toVec fromSlice (receivedOf i) now = _
      unfold DataNode.handleIncomingMessage
      rw [hnot]
    rw [hsame]
    exact ⟨h.mono (List.Subset.refl _) hgrows, fun m hm => absurd hm List.not_mem_nil,
      fun hne => absurd rfl hne⟩
  · have hhandled : handled
        = ⟨node.handleDeliveryStatusMessage fromSlice (receivedOf i) now, [], []⟩ := by
      show node.handleIncomingMessage toVec fromSlice (receivedOf i) now = _
      unfold DataNode.handleIncomingMessage
      rw [hin]
    have hthin : Own sent n handled.node := by
      rw [hhandled]
      exact Own.thin ⟨h.pending, h.inHand⟩ (thinned_report fromSlice node (receivedOf i) now)
    refine ⟨⟨(incoming_nodeId toVec fromSlice node _ now).trans h.nodeId, hthin.1, hthin.2, ?_⟩,
      by rw [hhandled]; exact fun m hm => absurd hm List.not_mem_nil,
      by rw [hhandled]; exact fun hne => absurd rfl hne⟩
    intro msgId record hrecord hconfirms
    rcases recordStep_cases (record_statusStep toVec fromSlice msgId node
      (.incoming (receivedOf i) now)) hrecord with hbefore | hwritten
    · exact (h.records msgId record hbefore hconfirms).mono hgrows
    · -- the status that was written is the one of the report
      replace hwritten : (if incoming node.service.nodeId (receivedOf i) = .deliveryStatus then
          writtenByReport fromSlice msgId (receivedOf i) else none) = some record.status := hwritten
      rw [if_pos hin] at hwritten
      obtain ⟨d, hd, hcode⟩ := Option.bind_eq_some_iff.mp hwritten
      split at hcode
      next hid =>
        have hbacked := hi.status hstatus d record.status hd hcode hconfirms
        have hself : i.forwarded.dstNode = n := hdst.trans h.nodeId
        rw [hid, hself] at hbacked
        exact HandedOn.mono ⟨_, hbacked⟩ hgrows
      next => exact absurd hcode (by simp)
  · have hhandled : handled = node.handleApplicationMessage toVec (receivedOf i) := by
      show node.handleIncomingMessage toVec fromSlice (receivedOf i) now = _
      unfold DataNode.handleIncomingMessage
      rw [hin]
    have hservice : handled.node.service = node.service := by
      rw [hhandled]
      exact application_service node toVec (receivedOf i)
    have hown : Own sent n handled.node := by
      rw [hhandled]
      exact Own.thin ⟨h.pending, h.inHand⟩ (thinned_application node toVec (receivedOf i)).1
    refine ⟨⟨by rw [hservice]; exact h.nodeId, hown.1, hown.2, ?_⟩, ?_,
      fun _ => hdst.trans h.nodeId⟩
    · intro msgId record hrecord hconfirms
      unfold DataNode.messageTracker at hrecord
      rw [hservice] at hrecord
      exact (h.records msgId record hrecord hconfirms).mono hgrows
    · have hbacked := emits_application hjson node sent handed (receivedOf i)
      rw [h.nodeId, ← hhandled] at hbacked
      exact hbacked

end Steps

/-! ## Runs -/

/-- **What holds of a mesh and its data services.** -/
structure ServedMesh.Inv (env : SessionEnv) (fromSlice : Bytes → Option DeliveryStatusMessage)
    (s : ServedMesh) : Prop where
  carried : Carried env (Backed fromSlice s.sent s.handed) s.mesh
  nodes : ∀ n, NodeInv s.sent s.handed n (s.node n)
  plain : ∀ m ∈ s.sent, ¬ IsStatus m
  taken : ∀ n, s.taken n ≤ (s.mesh.delivered n).length
  handed : ∀ h ∈ s.handed, h.message.msgId ≠ 0 →
    ∃ m ∈ s.sent, m.srcNode = h.message.srcNode ∧ m.msgId = some h.message.msgId ∧
      m.dstNode = h.node ∧ m.payload = h.message.payload ∧ m.corrId = h.message.corrId

namespace ServedMesh

variable {env : SessionEnv} {peer : SessionEnd → NodeId}
variable {toVec : DeliveryStatusMessage → Option Bytes}
variable {fromSlice : Bytes → Option DeliveryStatusMessage}

theorem carried_submitAll {P : OutboundMessage → Prop} {mesh : Mesh} (h : Carried env P mesh)
    (hhop : SurvivesHop env P) (n : NodeId) {outbound : List OutboundMessage}
    (hout : ∀ m ∈ outbound, P m) : Carried env P (submitAll env peer mesh n outbound) := by
  rw [submitAll_eq]
  refine h.run hhop fun a ha => ?_
  obtain ⟨m, hm, rfl⟩ := List.mem_map.mp ha
  exact hout m hm

theorem delivered_submitAll (mesh : Mesh) (n : NodeId) (outbound : List OutboundMessage) :
    (submitAll env peer mesh n outbound).delivered = mesh.delivered := by
  induction outbound generalizing mesh with
  | nil => rfl
  | cons m outbound ih => exact ih _

/-- What has been delivered stays. -/
theorem delivered_grows (peer : SessionEnd → NodeId) {P : OutboundMessage → Prop} {mesh : Mesh}
    (h : UnderWay env P mesh) (a : MeshStep) (n : NodeId) :
    mesh.delivered n <+: (mesh.step env peer a).delivered n := by
  rcases delivered_step peer h a with hsame | ⟨n', m, -, hpush⟩
  · rw [hsame]
  · rw [hpush]
    unfold push
    by_cases hn : n = n'
    · rw [hn, Function.update_self]
      exact List.prefix_append ..
    · rw [Function.update_of_ne hn]

theorem Inv.start {manager : NodeId → SessionManager} {node : NodeId → DataNode}
    (hlocal : ∀ n, (manager n).localNodeId = n) (hnode : ∀ n, FreshNode n (node n)) :
    (start manager node).Inv env fromSlice where
  carried := .start hlocal
  nodes := fun n => (hnode n).inv ..
  plain := fun _ hm => absurd hm List.not_mem_nil
  taken := fun _ => Nat.zero_le _
  handed := fun _ hh => absurd hh List.not_mem_nil

/-- The state at the nodes after one of them has changed. -/
theorem nodes_update {sent : List OutboundMessage} {handed : List Handing}
    {node : NodeId → DataNode} (h : ∀ n, NodeInv sent handed n (node n)) {n : NodeId}
    {node' : DataNode} (hnode : NodeInv sent handed n node') :
    ∀ n', NodeInv sent handed n' (Function.update node n node' n') :=
  (Function.forall_update_iff node fun n node => NodeInv sent handed n node).mpr
    ⟨hnode, fun n' _ => h n'⟩

/-- A node has changed, has sent some messages, and has handed some to subscriptions. -/
theorem Inv.acts (hread : ReadsBack env.crates env.fromReader) {s : ServedMesh}
    (h : s.Inv env fromSlice) {n : NodeId} {node' : DataNode} {outbound : List OutboundMessage}
    {sent' : List OutboundMessage} {handed' : List Handing} {taken' : NodeId → Nat}
    (htaken : ∀ n, taken' n ≤ (s.mesh.delivered n).length) (hsent : s.sent ⊆ sent')
    (hhanded : s.handed ⊆ handed')
    (hnode : NodeInv sent' handed' n node')
    (hout : ∀ m ∈ outbound, Backed fromSlice sent' handed' m) (hplain : ∀ m ∈ sent', ¬ IsStatus m)
    (hnew : ∀ h ∈ handed', h ∈ s.handed ∨ (h.message.msgId ≠ 0 →
      ∃ m ∈ sent', m.srcNode = h.message.srcNode ∧ m.msgId = some h.message.msgId ∧
        m.dstNode = h.node ∧ m.payload = h.message.payload ∧ m.corrId = h.message.corrId)) :
    Inv env fromSlice { s with
      mesh := submitAll env peer s.mesh n outbound
      node := Function.update s.node n node'
      taken := taken', sent := sent', handed := handed' } where
  carried := carried_submitAll (h.carried.mono fun _ hm => hm.mono hsent hhanded)
    (backed_survives hread _ _) n hout
  nodes := nodes_update (fun n => (h.nodes n).mono hsent hhanded) hnode
  plain := hplain
  taken := by
    rw [delivered_submitAll]
    exact htaken
  handed := by
    intro at_ hmem hid
    rcases hnew at_ hmem with hold | hnew
    · obtain ⟨m, hm, hrest⟩ := h.handed at_ hold hid
      exact ⟨m, hsent hm, hrest⟩
    · exact hnew hid

/-- What an event does at a node. -/
theorem Inv.node_event (hjson : JsonReadsBack toVec fromSlice) {s : ServedMesh}
    (h : s.Inv env fromSlice) {n : NodeId} {event : DataNode.NodeEvent}
    (ha : (ServedStep.event n event).Honest) :
    let handled := (s.node n).step toVec fromSlice event
    let sent' := s.sent ++ sentBy event handled.outbound
    NodeInv sent' s.handed n handled.node ∧
      (∀ m ∈ handled.outbound, Emits fromSlice sent' s.handed n m) ∧
      ∀ m ∈ sent', ¬ IsStatus m := by
  intro handled sent'
  have hnode := h.nodes n
  -- a change of the subscribers leaves what counts here
  have hqueue : ∀ deliveryQueue,
      NodeInv (s.sent ++ []) s.handed n { s.node n with deliveryQueue } := by
    rw [List.append_nil]
    exact fun _ => ⟨hnode.nodeId, hnode.pending, hnode.inHand, hnode.records⟩
  have hplain : ∀ m ∈ s.sent ++ [], ¬ IsStatus m := by
    rw [List.append_nil]
    exact h.plain
  cases event with
  | status event =>
    have hevent : ∀ message now, event ≠ .incoming message now := by
      intro message now heq
      rw [heq] at ha
      exact ha
    obtain ⟨hstep, hout⟩ := hnode.statusStep hjson h.plain hevent
    have hsame : sent' = s.sent := List.append_nil _
    rw [hsame]
    exact ⟨hstep, hout, h.plain⟩
  | send req now isOpen =>
    have hsent : ∀ m ∈ ((s.node n).service.send req now isOpen).outbound,
        m.srcNode = n ∧ ¬ IsStatus m := by
      intro m hm
      rw [send_outbound hm, IsStatus, outbound_lookup]
      exact ⟨hnode.nodeId, ha⟩
    refine ⟨hnode.send req now isOpen, fun m hm => ?_, fun m hm => ?_⟩
    · exact emits_sent ⟨List.mem_append_right _ hm, (hsent m hm).1⟩ (hsent m hm).2
    · rcases List.mem_append.mp hm with hm | hm
      · exact h.plain m hm
      · exact (hsent m hm).2
  | subscribe req => exact ⟨hqueue _, fun _ hm => absurd hm List.not_mem_nil, hplain⟩
  | unsubscribe subId => exact ⟨hqueue _, fun _ hm => absurd hm List.not_mem_nil, hplain⟩
  | dropReceiver subId => exact ⟨hqueue _, fun _ hm => absurd hm List.not_mem_nil, hplain⟩

/-- An event at a node. -/
theorem Inv.event (hread : ReadsBack env.crates env.fromReader)
    (hjson : JsonReadsBack toVec fromSlice) {s : ServedMesh} (h : s.Inv env fromSlice)
    {n : NodeId} {event : DataNode.NodeEvent} (ha : (ServedStep.event n event).Honest) :
    (s.step env peer toVec fromSlice (.event n event)).Inv env fromSlice := by
  obtain ⟨hnode, hout, hplain⟩ := h.node_event hjson ha
  exact h.acts hread h.taken (List.subset_append_left ..) (List.Subset.refl _) hnode
    (fun m hm => (hout m hm).backed) hplain fun _ hmem => .inl hmem

/-- What a call of `send_with_status_stream` does at a node. -/
theorem Inv.node_stream {s : ServedMesh} (h : s.Inv env fromSlice) {n : NodeId}
    {req : SendRequest} {now : Nat} {isOpen : Bool}
    (ha : (ServedStep.stream n req now isOpen).Honest) :
    let streamed := (s.node n).service.sendWithStatusStream req now isOpen
    let sent' := s.sent ++ streamed.outbound
    NodeInv sent' s.handed n { s.node n with service := streamed.service } ∧
      (∀ m ∈ streamed.outbound, Emits fromSlice sent' s.handed n m) ∧
      ∀ m ∈ sent', ¬ IsStatus m := by
  intro streamed sent'
  obtain ⟨hnode, hsent⟩ := (h.nodes n).stream req now isOpen
  have hplain : ∀ m ∈ streamed.outbound, ¬ IsStatus m := by
    intro m hm
    rw [hsent m hm, IsStatus, outbound_lookup]
    exact ha
  refine ⟨hnode, fun m hm => ?_, fun m hm => ?_⟩
  · exact emits_sent ⟨List.mem_append_right _ hm, by rw [hsent m hm]; rfl⟩ (hplain m hm)
  · rcases List.mem_append.mp hm with hm | hm
    · exact h.plain m hm
    · exact hplain m hm

/-- A stream is opened at a node. -/
theorem Inv.stream (hread : ReadsBack env.crates env.fromReader) {s : ServedMesh}
    (h : s.Inv env fromSlice) {n : NodeId} {req : SendRequest} {now : Nat} {isOpen : Bool}
    (ha : (ServedStep.stream n req now isOpen).Honest) :
    (s.step env peer toVec fromSlice (.stream n req now isOpen)).Inv env fromSlice := by
  obtain ⟨hnode, hout, hplain⟩ := h.node_stream ha
  exact h.acts hread h.taken (List.subset_append_left ..) (List.Subset.refl _) hnode
    (fun m hm => (hout m hm).backed) hplain fun _ hmem => .inl hmem

/-- The service of a node takes a message. -/
theorem Inv.take (hread : ReadsBack env.crates env.fromReader)
    (hjson : JsonReadsBack toVec fromSlice) {s : ServedMesh} (h : s.Inv env fromSlice)
    (n : NodeId) (now : Nat) :
    (s.step env peer toVec fromSlice (.take n now)).Inv env fromSlice := by
  cases hi : (s.mesh.delivered n)[s.taken n]? with
  | none =>
    rw [step_take_none env peer toVec fromSlice now hi]
    exact h
  | some i =>
    rw [step_take_some env peer toVec fromSlice now hi]
    have hbacked := h.carried.delivered n i (List.mem_of_getElem? hi)
    obtain ⟨hnode, hout, hdst⟩ := (h.nodes n).arrive hjson hbacked now
    have htaken : ∀ n', Function.update s.taken n (s.taken n + 1) n'
        ≤ (s.mesh.delivered n').length :=
      (Function.forall_update_iff s.taken fun n' k => k ≤ (s.mesh.delivered n').length).mpr
        ⟨(List.getElem?_eq_some_iff.mp hi).1, fun n' _ => h.taken n'⟩
    refine h.acts hread htaken (List.Subset.refl _) (List.subset_append_left ..) hnode
      (fun m hm => (hout m hm).backed) h.plain ?_
    intro at_ hmem
    refine (List.mem_append.mp hmem).imp id fun hmem hid => ?_
    obtain ⟨subId, hsub, rfl⟩ := List.mem_map.mp hmem
    -- the ID is the one of the client's message
    have hsome : i.msgId = some (i.msgId.getD 0) := by
      cases hmsgId : i.msgId with
      | none =>
        refine absurd ?_ hid
        show i.msgId.getD 0 = 0
        rw [hmsgId]
        rfl
      | some msgId => rfl
    obtain ⟨m₀, hm₀, hcopy⟩ :=
      hbacked.message fun hnone => absurd (hsome.symm.trans hnone) (by simp)
    refine ⟨m₀, hm₀, hcopy.srcNode.symm, hcopy.msgId.symm.trans hsome,
      hcopy.dstNode.symm.trans (hdst (List.ne_nil_of_mem hsub)), hcopy.payload.symm,
      hcopy.corrId.symm⟩

/-- **Every honest step keeps the invariant.** -/
theorem Inv.step (hread : ReadsBack env.crates env.fromReader)
    (hjson : JsonReadsBack toVec fromSlice) {s : ServedMesh} (h : s.Inv env fromSlice)
    {a : ServedStep} (ha : a.Honest) : (s.step env peer toVec fromSlice a).Inv env fromSlice := by
  cases a with
  | mesh a =>
    have hadds : a.Adds (Backed fromSlice s.sent s.handed) := by
      cases a with
      | submit n m => exact absurd ha id
      | control e m =>
        obtain ⟨hheader, hid⟩ := ha
        have hplain : ¬ IsStatus m.1 := fun hstatus =>
          absurd (hheader.symm.trans hstatus) (by simp)
        exact ⟨fun hstatus => absurd hstatus hplain, fun hstatus => absurd hstatus hplain,
          fun hne => absurd hid hne⟩
      | _ => trivial
    exact ⟨h.carried.step (backed_survives hread _ _) hadds, h.nodes, h.plain, fun n =>
      Nat.le_trans (h.taken n) (delivered_grows peer h.carried.toUnderWay a n).length_le, h.handed⟩
  | event n event => exact h.event hread hjson ha
  | stream n req now isOpen => exact h.stream hread ha
  | take n now => exact h.take hread hjson n now

theorem Inv.run (hread : ReadsBack env.crates env.fromReader)
    (hjson : JsonReadsBack toVec fromSlice) {s : ServedMesh} (h : s.Inv env fromSlice)
    {steps : List ServedStep} (hsteps : ∀ a ∈ steps, a.Honest) :
    (steps.foldl (ServedMesh.step env peer toVec fromSlice) s).Inv env fromSlice := by
  induction steps generalizing s with
  | nil => exact h
  | cons a steps ih =>
    exact ih (h.step hread hjson (hsteps a (List.mem_cons_self ..))) fun b hb =>
      hsteps b (List.mem_cons_of_mem _ hb)

end ServedMesh

/-- **No false confirmations.** In every run of a mesh with its data services in which no
client forges status messages: a node that shows one of its messages as `Delivered` or
`WaitingForClientAck` has been told so because a subscription at the message's destination
was handed the message, with the payload and the correlation ID that a client gave it. -/
theorem confirmed_means_handed (env : SessionEnv) (peer : SessionEnd → NodeId)
    (toVec : DeliveryStatusMessage → Option Bytes)
    (fromSlice : Bytes → Option DeliveryStatusMessage)
    (hread : ReadsBack env.crates env.fromReader) (hjson : JsonReadsBack toVec fromSlice)
    (manager : NodeId → SessionManager) (node : NodeId → DataNode)
    (hlocal : ∀ n, (manager n).localNodeId = n) (hnode : ∀ n, FreshNode n (node n))
    (steps : List ServedStep) (hsteps : ∀ a ∈ steps, a.Honest) (n : NodeId) (msgId : UInt64)
    (record : MessageRecord)
    (hrecord : ((ServedMesh.run env peer toVec fromSlice manager node steps).node
      n).messageTracker.lookup msgId = some record)
    (hstatus : record.status = .delivered ∨ record.status = .waitingForClientAck) :
    let s := ServedMesh.run env peer toVec fromSlice manager node steps
    ∃ m ∈ s.sent, ∃ h ∈ s.handed, m.srcNode = n ∧ m.msgId = some msgId ∧ h.node = m.dstNode ∧
      h.message.srcNode = n ∧ h.message.msgId = msgId ∧ h.message.payload = m.payload ∧
      h.message.corrId = m.corrId := by
  intro s
  have hinv : s.Inv env fromSlice :=
    ServedMesh.Inv.run hread hjson (ServedMesh.Inv.start hlocal hnode) hsteps
  obtain ⟨at_, hid, h, hmem, hat, hsrc, hmsgId⟩ :=
    (hinv.nodes n).records msgId record hrecord hstatus
  obtain ⟨m, hm, hmsrc, hmid, hmdst, hmpayload, hmcorr⟩ :=
    hinv.handed h hmem (by rw [hmsgId]; exact hid)
  exact ⟨m, hm, h, hmem, hmsrc.trans hsrc, hmid.trans (congrArg some hmsgId), hmdst.symm, hsrc,
    hmsgId, hmpayload.symm, hmcorr.symm⟩

/-- A writer and a reader of the report that message 1 was delivered. -/
def writeDelivered (d : DeliveryStatusMessage) : Option Bytes :=
  if d = deliveredReport then jsonStatus d else none

def readDelivered (bytes : Bytes) : Option DeliveryStatusMessage :=
  if some bytes = jsonStatus deliveredReport then some deliveredReport else none

theorem delivered_readsBack : JsonReadsBack writeDelivered readDelivered where
  readsBack := by
    intro d bytes h
    unfold writeDelivered at h
    split at h
    next heq =>
      unfold readDelivered
      rw [heq] at h ⊢
      exact if_pos h.symm
    next => exact absurd h (by simp)
  empty := by decide +kernel

/-- Nodes 1 and 2, which have a session with each other. -/
def pairManager (n : NodeId) : SessionManager :=
  let other : NodeId := if n = 1 then 2 else 1
  { localNodeId := n
    routingTable :=
      { RoutingTable.new n (fun _ _ _ => 0) with
        routes := AList.insert other (HopSet.single (NextHop.new other 100)) ∅ }
    sessions := AList.insert other 0 ∅ }

/-- Every node has a subscriber. -/
def pairNode (n : NodeId) : DataNode :=
  { subscribedNode with service := { newService with nodeId := n } }

/-- The message is sent, handed to the subscriber at node 2, and reported back. -/
def confirmedRun : List ServedStep :=
  [.event 1 (.send { requestWith [] 0 with dstNode := 2 } 0 true),
    .mesh (.handleOutbound 1), .mesh (.write (1, 0)), .mesh (.read (1, 0)),
    .mesh (.handleEvent 2), .take 2 0,
    .mesh (.handleOutbound 2), .mesh (.write (2, 0)), .mesh (.read (2, 0)),
    .mesh (.handleEvent 1), .take 1 1]

theorem confirmed_means_handed_pair :
    let s := ServedMesh.run { exampleEnv none with crates := .flat, fromReader := readMap }
      (fun e => if e.1 = 1 then 2 else 1) writeDelivered readDelivered pairManager pairNode
      confirmedRun
    ((s.node 1).messageTracker.lookup 1).map MessageRecord.status = some .delivered ∧
      ∃ m ∈ s.sent, ∃ h ∈ s.handed, h.node = m.dstNode ∧ h.message.srcNode = 1 ∧
        h.message.msgId = 1 ∧ h.message.payload = m.payload := by
  intro s
  have hstatus : ((s.node 1).messageTracker.lookup 1).map MessageRecord.status
      = some .delivered := by decide +kernel
  obtain ⟨record, hrecord, hdelivered⟩ := Option.map_eq_some_iff.mp hstatus
  refine ⟨hstatus, ?_⟩
  have hhonest : ∀ a ∈ confirmedRun, a.Honest := by
    intro a ha
    simp only [confirmedRun, List.mem_cons, List.not_mem_nil, or_false] at ha
    rcases ha with rfl | rfl | rfl | rfl | rfl | rfl | rfl | rfl | rfl | rfl | rfl
    · show SendRequest.header _ _ ≠ _
      decide
    all_goals trivial
  have hfresh : ∀ n, FreshNode n (pairNode n) :=
    fun n => ⟨rfl, fun _ => rfl, fun _ => rfl, rfl⟩
  obtain ⟨m, hm, h, hh, -, -, hnode, hsrc, hid, hpayload, -⟩ :=
    confirmed_means_handed { exampleEnv none with crates := .flat, fromReader := readMap }
      (fun e => if e.1 = 1 then 2 else 1) writeDelivered readDelivered
      DeliveryRun.flat_readsBack delivered_readsBack pairManager pairNode (fun _ => rfl) hfresh
      confirmedRun hhonest 1 1 record hrecord (.inl hdelivered)
  exact ⟨m, hm, h, hh, hnode, hsrc, hid, hpayload⟩

end MeshCore.Network
