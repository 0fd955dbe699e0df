import MeshCore.Grpc.Effects

/-!
# A message to the own node

A client may send to its own node. The message goes the way of any other: it is
queued, the session manager delivers it to the service, and the service hands it
to the subscribers. But `send_delivery_status_to_source` sends nothing to the own
node, so no status ever ends the retries: a retry pass has the message handed to
the same subscriber again (`local_message_again`), until the attempts run out and
it is `Undeliverable`.

`LocalRun` is the service, the retry processor and the session manager of one
node with the channels between them. `local_message_once` says what keeps a
message from being handed over twice, and its status from becoming
`Undeliverable`: that no pass takes it up once it is on its way or was handed
over, and that no status message from elsewhere says so of its ID. Routing
feedback says it of no message (`noRoute_decision`).

Mirroring notes:
- What the manager sends into sessions leaves the node and is dropped here; what
  comes in by sessions is an event of the manager.
- A message on its way to the service is marked with whether it came from the
  service's own outbound channel, and the run keeps what was handed to whom of
  those, and the IDs `send` has given out.
- Clients send by `send`. A call of `send_with_status_stream`, which queues its message in
  the same way, is no event here.
-/

namespace MeshCore.Grpc

open MeshCore.Lib MeshCore.Wire MeshCore.Session DataNode
open MeshCore.Topology (NodeId TopologyDatabase)
open MeshCore.Routing

/-! ## The run -/

/-- The service, the retry processor and the session manager of one node, with the
channels between them. `handed` has the subscriptions a message was sent to, with
its ID if it came from the node's own service, and `sentIds` the IDs given out. -/
structure LocalRun where
  node : DataNode
  manager : SessionManager
  outbound : List OutboundMessage
  inbox : List (Bool × InboundMessage)
  feedbacks : List RoutingFeedback
  handed : List (UInt64 × Option UInt64)
  sentIds : List UInt64

/-- What can happen next. -/
inductive LocalEvent where
  | send (req : SendRequest) (now : Nat) (isOpen : Bool)
  | ackMessage (ack : Ack) (now : Nat)
  | subscribe (req : SubscribeRequest)
  | unsubscribe (subId : UInt64)
  | dropReceiver (subId : UInt64)
  | retryTick (now : Nat)
  | retryTake (now : Nat)
  | retrySend (now : Nat) (isOpen : Bool)
  | cleanup (now : Nat)
  | takeOutbound
  | session (registry : Registry) (event : SessionEvent)
  | routes (routingTable : RoutingTable)
  | takeInbox (now : Nat)
  | takeFeedback (now : Nat)

namespace LocalRun

/-- An event at the service. `own` is the ID of the message if it came back from
the service's own channel. -/
def perform (toVec : DeliveryStatusMessage → Option Bytes)
    (fromSlice : Bytes → Option DeliveryStatusMessage) (s : LocalRun) (event : NodeEvent)
    (own : Option UInt64) : LocalRun :=
  let handled := s.node.step toVec fromSlice event
  { s with
    node := handled.node
    outbound := s.outbound ++ handled.outbound
    handed := s.handed ++ handled.handed.map fun subId => (subId, own) }

/-- The messages among the manager's outputs that go to the service. -/
def delivered (outputs : List ManagerOutput) : List InboundMessage :=
  outputs.filterMap fun
    | .deliver message => some message
    | _ => none

/-- The routing feedback among them. -/
def fedBack (outputs : List ManagerOutput) : List RoutingFeedback :=
  outputs.filterMap fun
    | .feedback feedback => some feedback
    | _ => none

/-- The manager's outputs go to the service. -/
def carry (s : LocalRun) (own : Bool) (outputs : List ManagerOutput) : LocalRun :=
  { s with
    inbox := s.inbox ++ (delivered outputs).map fun message => (own, message)
    feedbacks := s.feedbacks ++ fedBack outputs }

/-- One event. -/
def step (toVec : DeliveryStatusMessage → Option Bytes)
    (fromSlice : Bytes → Option DeliveryStatusMessage) (s : LocalRun) : LocalEvent → LocalRun
  | .send req now isOpen =>
    let nextId := s.node.service.nextId
    let s := s.perform toVec fromSlice (.send req now isOpen) none
    if s.node.service.nextId = nextId then s else { s with sentIds := nextId :: s.sentIds }
  | .ackMessage ack now => s.perform toVec fromSlice (.status (.ackMessage ack now)) none
  | .subscribe req => s.perform toVec fromSlice (.subscribe req) none
  | .unsubscribe subId => s.perform toVec fromSlice (.unsubscribe subId) none
  | .dropReceiver subId => s.perform toVec fromSlice (.dropReceiver subId) none
  | .retryTick now => s.perform toVec fromSlice (.status (.retryTick now)) none
  | .retryTake now => s.perform toVec fromSlice (.status (.retryTake now)) none
  | .retrySend now isOpen => s.perform toVec fromSlice (.status (.retrySend now isOpen)) none
  | .cleanup now => s.perform toVec fromSlice (.status (.cleanup now)) none
  | .takeOutbound =>
    match s.outbound with
    | [] => s
    | message :: outbound =>
      { s with outbound }.carry true (s.manager.handleOutboundMessage message)
  | .session registry event =>
    let (manager, outputs) := s.manager.handleSessionEvent registry event
    { s with manager }.carry false outputs
  | .routes routingTable => { s with manager := { s.manager with routingTable } }
  | .takeInbox now =>
    match s.inbox with
    | [] => s
    | (own, message) :: inbox =>
      { s with inbox }.perform toVec fromSlice (.status (.incoming (receivedOf message) now))
        (if own then message.msgId else none)
  | .takeFeedback now =>
    match s.feedbacks with
    | [] => s
    | feedback :: feedbacks =>
      { s with feedbacks }.perform toVec fromSlice (.status (.routingFeedback feedback now)) none

/-! ## Where the copies of a message are -/

/-- The copies of a message on their way from the service back to it. -/
def copies (msgId : UInt64) (s : LocalRun) : Nat :=
  s.outbound.countP (fun message => message.msgId = some msgId) +
    s.inbox.countP fun e => e.1 ∧ e.2.msgId = some msgId

/-- Nobody was handed the message, and no copy of it is on its way. -/
def Unseen (msgId : UInt64) (s : LocalRun) : Prop :=
  (∀ e ∈ s.handed, e.2 ≠ some msgId) ∧ s.copies msgId = 0

instance (msgId : UInt64) (s : LocalRun) : Decidable (s.Unseen msgId) :=
  inferInstanceAs (Decidable (_ ∧ _))

/-- How often a subscriber was or may yet be handed the message, if nobody sends it
again. -/
def weight (msgId : UInt64) (s : LocalRun) (subId : UInt64) : Nat :=
  s.handed.count (subId, some msgId) + s.copies msgId

theorem unseen_iff {msgId : UInt64} {s : LocalRun} :
    s.Unseen msgId ↔ ∀ subId, s.weight msgId subId = 0 := by
  unfold Unseen weight
  constructor
  · rintro ⟨hhanded, hcopies⟩ subId
    rw [hcopies, Nat.add_zero, List.count_eq_zero]
    exact fun hmem => hhanded _ hmem rfl
  · intro h
    refine ⟨fun e hmem hid => ?_, by have := h 0; omega⟩
    have hcount : s.handed.count (e.1, some msgId) = 0 := by have := h e.1; omega
    rw [← hid] at hcount
    exact List.count_eq_zero.mp hcount hmem

/-- What an event at the service adds. -/
theorem weight_perform (msgId : UInt64) (toVec : DeliveryStatusMessage → Option Bytes)
    (fromSlice : Bytes → Option DeliveryStatusMessage) (s : LocalRun) (event : NodeEvent)
    (own : Option UInt64) (subId : UInt64) :
    (s.perform toVec fromSlice event own).weight msgId subId
      = s.weight msgId subId
        + (s.node.step toVec fromSlice event).outbound.countP (fun m => m.msgId = some msgId)
        + ((s.node.step toVec fromSlice event).handed.map fun subId => (subId, own)).count
            (subId, some msgId) := by
  unfold weight copies perform
  dsimp only
  rw [List.countP_append, List.count_append]
  omega

theorem weight_of_unsent {msgId : UInt64} (toVec : DeliveryStatusMessage → Option Bytes)
    (fromSlice : Bytes → Option DeliveryStatusMessage) (s : LocalRun) (event : NodeEvent)
    (hout : ∀ m ∈ (s.node.step toVec fromSlice event).outbound, m.msgId ≠ some msgId)
    (subId : UInt64) :
    (s.perform toVec fromSlice event none).weight msgId subId = s.weight msgId subId := by
  have hcount : ((s.node.step toVec fromSlice event).handed.map fun subId =>
      (subId, (none : Option UInt64))).count (subId, some msgId) = 0 := by
    rw [List.count_eq_zero]
    intro hmem
    obtain ⟨_, _, heq⟩ := List.mem_map.mp hmem
    exact absurd (Prod.mk.inj heq).2 (by simp)
  have hsent : (s.node.step toVec fromSlice event).outbound.countP
      (fun m => m.msgId = some msgId) = 0 := by
    rw [List.countP_eq_zero]
    exact fun m hm => by simpa using hout m hm
  rw [weight_perform, hcount, hsent, Nat.add_zero]

/-- The service puts nothing on the channel. -/
theorem unseen_of_silent (msgId : UInt64) (toVec : DeliveryStatusMessage → Option Bytes)
    (fromSlice : Bytes → Option DeliveryStatusMessage) (s : LocalRun) (event : NodeEvent)
    (hout : (s.node.step toVec fromSlice event).outbound = []) :
    (∀ subId, (s.perform toVec fromSlice event none).weight msgId subId = s.weight msgId subId) ∧
      (s.Unseen msgId → (s.perform toVec fromSlice event none).Unseen msgId) := by
  have hweight : ∀ subId, (s.perform toVec fromSlice event none).weight msgId subId
      = s.weight msgId subId := by
    refine weight_of_unsent toVec fromSlice s event fun m hm => ?_
    rw [hout] at hm
    exact absurd hm List.not_mem_nil
  refine ⟨hweight, ?_⟩
  rw [unseen_iff, unseen_iff]
  exact fun h subId => (hweight subId).trans (h subId)

/-- The service puts one message on the channel. -/
theorem weight_of_sent {msgId : UInt64} (toVec : DeliveryStatusMessage → Option Bytes)
    (fromSlice : Bytes → Option DeliveryStatusMessage) {s : LocalRun} (event : NodeEvent)
    {m : OutboundMessage} (hunseen : s.Unseen msgId)
    (hhanded : (s.node.step toVec fromSlice event).handed = [])
    (hout : (s.node.step toVec fromSlice event).outbound = [m]) (subId : UInt64) :
    (s.perform toVec fromSlice event none).weight msgId subId ≤ 1 := by
  rw [weight_perform, hhanded, hout, unseen_iff.mp hunseen subId, Nat.zero_add]
  exact List.countP_le_length

/-- A copy that arrives is handed over at most once to each. -/
theorem weight_arrive {msgId : UInt64} (toVec : DeliveryStatusMessage → Option Bytes)
    (fromSlice : Bytes → Option DeliveryStatusMessage) {s : LocalRun} {own : Bool}
    {message : InboundMessage} {inbox : List (Bool × InboundMessage)}
    (hinbox : s.inbox = (own, message) :: inbox) (now : Nat)
    (hout : ∀ m ∈ (s.node.handleIncomingMessage toVec fromSlice (receivedOf message)
      now).outbound, m.msgId ≠ some msgId) (subId : UInt64) :
    ({ s with inbox }.perform toVec fromSlice (.status (.incoming (receivedOf message) now))
      (if own then message.msgId else none)).weight msgId subId ≤ s.weight msgId subId := by
  rw [weight_perform]
  have hsent : (s.node.handleIncomingMessage toVec fromSlice (receivedOf message)
      now).outbound.countP (fun m => m.msgId = some msgId) = 0 := by
    rw [List.countP_eq_zero]
    exact fun m hm => by simpa using hout m hm
  have hbefore : s.weight msgId subId = LocalRun.weight msgId { s with inbox } subId
      + if own ∧ message.msgId = some msgId then 1 else 0 := by
    unfold weight copies
    rw [hinbox, List.countP_cons]
    simp only [decide_eq_true_eq]
    omega
  have hhanded : ((s.node.handleIncomingMessage toVec fromSlice (receivedOf message)
      now).handed.map fun subId => (subId, if own then message.msgId else none)).count
        (subId, some msgId) ≤ if own ∧ message.msgId = some msgId then 1 else 0 := by
    have hnodup := handed_nodup s.node toVec fromSlice (receivedOf message) now
    by_cases hown : own ∧ message.msgId = some msgId
    · rw [if_pos hown]
      refine List.nodup_iff_count_le_one.mp (hnodup.map ?_) _
      exact fun _ _ heq => (Prod.mk.inj heq).1
    · rw [if_neg hown, Nat.le_zero, List.count_eq_zero]
      intro hmem
      obtain ⟨_, _, heq⟩ := List.mem_map.mp hmem
      have hid := (Prod.mk.inj heq).2
      split at hid
      next htrue => exact hown ⟨htrue, hid⟩
      next => exact absurd hid (by simp)
  rw [hbefore]
  show LocalRun.weight msgId { s with inbox } subId
    + (s.node.handleIncomingMessage toVec fromSlice (receivedOf message) now).outbound.countP _
    + _ ≤ _
  rw [hsent]
  exact Nat.add_le_add_left hhanded _

/-- The manager delivers what it takes from the service once, or not at all. -/
theorem delivered_outbound (mgr : SessionManager) (message : OutboundMessage) :
    delivered (mgr.handleOutboundMessage message) = [] ∨
      delivered (mgr.handleOutboundMessage message) = [message.delivered] := by
  unfold SessionManager.handleOutboundMessage
  split
  · exact Or.inr rfl
  · have hfeedback : ∀ o : Option UInt64, delivered (o.map fun msgId =>
        ManagerOutput.feedback (routingFeedback msgId (mgr.decision message))).toList = [] := by
      intro o
      cases o <;> rfl
    unfold delivered at hfeedback ⊢
    rw [List.filterMap_append, hfeedback, List.nil_append]
    unfold SessionManager.route
    split
    · split
      · exact Or.inl rfl
      · exact Or.inl rfl
    · exact Or.inr rfl
    · exact Or.inl rfl

theorem weight_takeOutbound {msgId : UInt64} {s : LocalRun} {message : OutboundMessage}
    {outbound : List OutboundMessage} (houtbound : s.outbound = message :: outbound)
    (subId : UInt64) :
    ({ s with outbound }.carry true (s.manager.handleOutboundMessage message)).weight msgId subId
      ≤ s.weight msgId subId := by
  have hone : ((delivered (s.manager.handleOutboundMessage message)).map fun m =>
      (true, m)).countP (fun e => e.1 ∧ e.2.msgId = some msgId)
        ≤ if message.msgId = some msgId then 1 else 0 := by
    rcases delivered_outbound s.manager message with h | h
    · rw [h]
      exact Nat.zero_le _
    · rw [h, List.map_singleton, List.countP_singleton]
      simp only [true_and, decide_eq_true_eq]
      exact Nat.le_refl _
  unfold weight copies carry
  dsimp only
  rw [houtbound, List.countP_cons, List.countP_append]
  simp only [decide_eq_true_eq]
  omega

/-- What comes in by a session is no copy of the node's own message. -/
theorem weight_session (msgId : UInt64) (s : LocalRun) (outputs : List ManagerOutput)
    (subId : UInt64) : (s.carry false outputs).weight msgId subId = s.weight msgId subId := by
  have hnone : ((delivered outputs).map fun m => (false, m)).countP
      (fun e => e.1 ∧ e.2.msgId = some msgId) = 0 := by
    rw [List.countP_eq_zero]
    intro e hmem
    obtain ⟨_, _, rfl⟩ := List.mem_map.mp hmem
    simp
  unfold weight copies carry
  dsimp only
  rw [List.countP_append, hnone]
  rfl

end LocalRun

open LocalRun

/-! ## At most once -/

/-- The message is not pending and not taken out, nobody was handed it, and no copy
of it is on its way. -/
structure Gone (msgId : UInt64) (s : LocalRun) : Prop where
  unpended : s.node.pendingMessages.lookup msgId = none
  notInHand : ∀ queued, s.node.retryPass.inHand ≠ some (msgId, queued)
  unseen : s.Unseen msgId

/-- **The invariant:** the message was handed over once at most to each subscriber,
copies on their way included. While it is taken out nothing else is left of it,
before it is sent there is nothing, and if its record says `Undeliverable` it is
gone. -/
structure Once (msgId : UInt64) (s : LocalRun) : Prop where
  messages : MessagesOk s.node
  unsent : msgId ∉ s.sentIds → Gone msgId s ∧ s.node.messageTracker.lookup msgId = none
  taken : ∀ queued, s.node.retryPass.inHand = some (msgId, queued) →
    s.node.pendingMessages.lookup msgId = none ∧ s.Unseen msgId
  once : ∀ subId, s.weight msgId subId ≤ 1
  undeliverable : Undeliverable msgId s.node → Gone msgId s

/-- For a message: its ID is not given out again, the retry processor takes it up
only while nobody was handed it and no copy of it is on its way, and no status
message says of its ID that it is undeliverable. -/
def Calm (fromSlice : Bytes → Option DeliveryStatusMessage) (msgId : UInt64) (s : LocalRun) :
    LocalEvent → Prop
  | .send _ _ _ => s.node.service.nextId = msgId → msgId ∉ s.sentIds
  | .retryTake _ => s.node.retryPass.inHand = none → s.node.retryPass.todo.head? = some msgId →
      s.node.pendingMessages.lookup msgId ≠ none → s.Unseen msgId
  | .takeInbox _ => ∀ e ∈ s.inbox.head?,
      incoming s.node.service.nodeId (receivedOf e.2) = .deliveryStatus →
        writtenByReport fromSlice msgId (receivedOf e.2) ≠ some .undeliverable
  | _ => True

/-- The message was sent and is gone. -/
def Dead (msgId : UInt64) (s : LocalRun) : Prop := msgId ∈ s.sentIds ∧ Gone msgId s

/-- A quiet step that sends no copy keeps the invariant, and what is gone stays gone. -/
theorem Once.quiet {msgId : UInt64} {s s' : LocalRun} {outbound : List OutboundMessage}
    (h : Once msgId s) (hquiet : Quiet msgId s.node s'.node outbound)
    (hsent : msgId ∈ s'.sentIds ↔ msgId ∈ s.sentIds)
    (hweight : ∀ subId, s'.weight msgId subId ≤ s.weight msgId subId) :
    Once msgId s' ∧ (Dead msgId s → Dead msgId s') := by
  have hunseen : s.Unseen msgId → s'.Unseen msgId := by
    rw [unseen_iff, unseen_iff]
    exact fun hzero subId => Nat.le_zero.mp ((hweight subId).trans (hzero subId).le)
  have hgone : Gone msgId s → Gone msgId s' := by
    intro hg
    refine ⟨hquiet.unpended hg.unpended, fun queued hinHand => ?_, hunseen hg.unseen⟩
    obtain ⟨queued', hqueued'⟩ := hquiet.inHand queued hinHand
    exact hg.notInHand queued' hqueued'
  refine ⟨⟨hquiet.messages, fun hno => ?_, fun queued hinHand => ?_, fun subId => ?_,
    fun hund => hgone (h.undeliverable (hquiet.status hund))⟩,
    fun hdead => ⟨hsent.mpr hdead.1, hgone hdead.2⟩⟩
  · obtain ⟨hg, hrecord⟩ := h.unsent fun hmem => hno (hsent.mpr hmem)
    exact ⟨hgone hg, hquiet.untracked hrecord⟩
  · obtain ⟨queued', hqueued'⟩ := hquiet.inHand queued hinHand
    obtain ⟨hpending, hun⟩ := h.taken queued' hqueued'
    exact ⟨hquiet.unpended hpending, hunseen hun⟩
  · exact (hweight subId).trans (h.once subId)

/-- The service performs a quiet event. -/
theorem Once.perform {msgId : UInt64} {toVec : DeliveryStatusMessage → Option Bytes}
    {fromSlice : Bytes → Option DeliveryStatusMessage} {s : LocalRun} (h : Once msgId s)
    (event : NodeEvent) (hquiet : Quiet msgId s.node (s.node.step toVec fromSlice event).node
      (s.node.step toVec fromSlice event).outbound) :
    Once msgId (s.perform toVec fromSlice event none) ∧
      (Dead msgId s → Dead msgId (s.perform toVec fromSlice event none)) :=
  h.quiet hquiet Iff.rfl fun subId =>
    (weight_of_unsent toVec fromSlice s event hquiet.unsent subId).le

/-- The retry processor takes up the next message. If it is this one, the condition
says that nothing else is left of it. -/
theorem once_retryTake {msgId : UInt64} (toVec : DeliveryStatusMessage → Option Bytes)
    (fromSlice : Bytes → Option DeliveryStatusMessage) {s : LocalRun} (h : Once msgId s) (now : Nat)
    (hcalm : Calm fromSlice msgId s (.retryTake now)) :
    let s' := s.perform toVec fromSlice (.status (.retryTake now)) none
    Once msgId s' ∧ (Dead msgId s → Dead msgId s') := by
  intro s'
  rcases retryTake_cases s.node now with ⟨_, _, hother⟩ |
    ⟨msgId', todo, queued, status, text, hnone, htodo, hqueued, hpending, htracker, hinHand⟩
  · exact h.perform (.status (.retryTake now))
      (quiet_retryTake h.messages now (hother msgId))
  · by_cases heq : msgId' = msgId
    · rw [heq] at hqueued hpending htracker hinHand htodo
      have hunseen : s.Unseen msgId :=
        hcalm hnone (by rw [htodo]; rfl) (by rw [hqueued]; simp)
      obtain ⟨hweight, hunseen'⟩ := unseen_of_silent msgId toVec fromSlice s
        (.status (.retryTake now)) rfl
      have hpending' : s'.node.pendingMessages.lookup msgId = none := by
        show (s.node.retryTake now).pendingMessages.lookup msgId = none
        rw [hpending, AList.lookup_erase]
      have hnotGone : ¬ Gone msgId s := fun hg => absurd (hg.unpended.symm.trans hqueued) (by simp)
      refine ⟨⟨retryTake_messages h.messages now, fun hno => absurd (h.unsent hno).1 hnotGone,
        fun _ _ => ⟨hpending', hunseen' hunseen⟩,
        fun subId => (hweight subId).le.trans (h.once subId),
        fun hund => ⟨hpending', fun queued' htaken => ?_, hunseen' hunseen⟩⟩,
        fun hdead => absurd hdead.2 hnotGone⟩
      -- a message that is taken out to be sent is queued
      rcases hinHand with hnone' | ⟨hstatus, _⟩
      · exact absurd (hnone'.symm.trans htaken) (by simp)
      · have hrecord : ((s.node.retryTake now).messageTracker.lookup msgId).map
            MessageRecord.status = some .undeliverable := hund
        rw [htracker, MessageTracker.lookup_updateStatus, if_pos rfl, Option.map_map, hstatus,
          Option.map_eq_some_iff] at hrecord
        obtain ⟨_, _, hqueuedStatus⟩ := hrecord
        exact absurd hqueuedStatus (by simp [MessageRecord.updateStatus])
    · refine h.perform (.status (.retryTake now))
        (quiet_retryTake h.messages now fun _ hhead => ?_)
      rw [htodo] at hhead
      exact absurd (Option.some.inj hhead) heq

/-- It sends the message it has taken out. If it is this one, that is the only copy. -/
theorem once_retrySend {msgId : UInt64} (toVec : DeliveryStatusMessage → Option Bytes)
    (fromSlice : Bytes → Option DeliveryStatusMessage) {s : LocalRun} (h : Once msgId s) (now : Nat)
    (isOpen : Bool) :
    let s' := s.perform toVec fromSlice (.status (.retrySend now isOpen)) none
    Once msgId s' ∧ (Dead msgId s → Dead msgId s') := by
  intro s'
  by_cases hin : ∃ queued, s.node.retryPass.inHand = some (msgId, queued)
  · obtain ⟨queued, hin⟩ := hin
    obtain ⟨hunpended, hunseen⟩ := h.taken queued hin
    have hnotGone : ¬ Gone msgId s := fun hg => hg.notInHand queued hin
    rcases retrySend_cases s.node now isOpen with ⟨hnone, _⟩ |
      ⟨msgId', queued', htaken, hnone, hrest⟩
    · exact absurd (hnone.symm.trans hin) (by simp)
    · obtain ⟨rfl, rfl⟩ := Prod.mk.inj (Option.some.inj (hin.symm.trans htaken))
      have hnotInHand : ∀ queued', s'.node.retryPass.inHand ≠ some (msgId, queued') :=
        fun queued' h' => absurd (hnone.symm.trans h') (by simp)
      have hmessages : MessagesOk s'.node := retrySend_messages h.messages now isOpen
      have htaken' : ∀ queued', s'.node.retryPass.inHand = some (msgId, queued') →
          s'.node.pendingMessages.lookup msgId = none ∧ s'.Unseen msgId :=
        fun queued' h' => absurd h' (hnotInHand queued')
      refine ⟨⟨hmessages, fun hno => absurd (h.unsent hno).1 hnotGone, htaken', ?_, fun hund => ?_⟩,
        fun hdead => absurd hdead.2 hnotGone⟩
      · rcases hrest with ⟨_, _, hout⟩ | ⟨_, _, hout⟩
        · exact weight_of_sent toVec fromSlice (.status (.retrySend now isOpen)) hunseen rfl hout
        · intro subId
          rw [(unseen_of_silent msgId toVec fromSlice s (.status (.retrySend now isOpen)) hout).1]
          exact h.once subId
      · rcases hrest with ⟨_, htracker, _⟩ | ⟨hpending, _, hout⟩
        · refine absurd (h.undeliverable ?_) hnotGone
          unfold Undeliverable at hund ⊢
          rw [← htracker]
          exact hund
        · refine ⟨?_, hnotInHand, ?_⟩
          · show (s.node.retrySend now isOpen).1.pendingMessages.lookup msgId = none
            rw [hpending]
            exact hunpended
          · exact (unseen_of_silent msgId toVec fromSlice s (.status (.retrySend now isOpen))
              hout).2 hunseen
  · exact h.perform (.status (.retrySend now isOpen))
      (quiet_retrySend h.messages now isOpen fun queued hqueued => hin ⟨queued, hqueued⟩)

/-- A request is sent. If the message gets the ID, nothing had it before. -/
theorem once_send {msgId : UInt64} (toVec : DeliveryStatusMessage → Option Bytes)
    (fromSlice : Bytes → Option DeliveryStatusMessage) {s : LocalRun} (h : Once msgId s)
    (req : SendRequest) (now : Nat) (isOpen : Bool)
    (hcalm : Calm fromSlice msgId s (.send req now isOpen)) :
    let s' := step toVec fromSlice s (.send req now isOpen)
    Once msgId s' ∧ (Dead msgId s → Dead msgId s') := by
  intro s'
  have hs' : s' = if (s.node.service.send req now isOpen).service.nextId = s.node.service.nextId
      then s.perform toVec fromSlice (.send req now isOpen) none
      else { s.perform toVec fromSlice (.send req now isOpen) none with
        sentIds := s.node.service.nextId :: s.sentIds } := rfl
  rcases send_cases s.node.service req now isOpen with ⟨hservice, _⟩ |
    ⟨hnext, record, htracked, hrest⟩
  · rw [hs', if_pos (by rw [hservice])]
    exact h.perform (.send req now isOpen)
      (quiet_send h.messages req now isOpen fun hne => absurd hservice hne)
  · rw [hs', if_neg (by rw [hnext]; simp)]
    by_cases heq : s.node.service.nextId = msgId
    · have hno : msgId ∉ s.sentIds := hcalm heq
      obtain ⟨⟨hunpended, hnotInHand, hunseen⟩, hnone⟩ := h.unsent hno
      refine ⟨⟨send_messages h.messages req now isOpen, fun hmem => ?_,
        fun queued hinHand => absurd hinHand (hnotInHand queued), fun subId => ?_, fun hund => ?_⟩,
        fun hdead => absurd hdead.1 hno⟩
      · exact absurd (heq ▸ List.mem_cons_self) hmem
      · rcases hrest with ⟨_, hout⟩ | ⟨_, queued, _, _, hout⟩
        · have hweight := (unseen_of_silent msgId toVec fromSlice s (.send req now isOpen) hout).1
          exact (hweight subId).le.trans (h.once subId)
        · exact weight_of_sent toVec fromSlice (.send req now isOpen) hunseen rfl hout subId
      · rcases hrest with ⟨hqueue, hout⟩ | ⟨hqueued, _, _, _, _⟩
        · refine ⟨?_, hnotInHand,
            (unseen_of_silent msgId toVec fromSlice s (.send req now isOpen) hout).2 hunseen⟩
          show (s.node.service.send req now isOpen).service.messageQueue.pendingMessages.lookup
            msgId = none
          rw [hqueue]
          exact hunpended
        · -- a message that is sent is queued
          have hrecord : ((s.node.service.send req now isOpen).service.messageTracker.lookup
              msgId).map MessageRecord.status = some .undeliverable := hund
          rw [htracked, if_pos heq.symm, Option.map_some, hqueued] at hrecord
          exact absurd hrecord (by simp)
    · have hquiet := quiet_send h.messages req now isOpen fun _ => Ne.symm heq
      refine h.quiet hquiet ?_ fun subId =>
        (weight_of_unsent toVec fromSlice s (.send req now isOpen) hquiet.unsent subId).le
      rw [List.mem_cons]
      exact or_iff_right (Ne.symm heq)

/-! ## Routing feedback -/

/-- If the message was dropped, there was no route. -/
def NoRoute (feedback : RoutingFeedback) : Prop :=
  ∀ reason, feedback.decision = .drop reason → reason = .noRoute

/-- A lack of a route does not make a message undeliverable. -/
theorem NoRoute.written {feedback : RoutingFeedback} (h : NoRoute feedback) (msgId : UInt64) :
    writtenByFeedback msgId feedback ≠ some .undeliverable := by
  unfold writtenByFeedback
  split
  next reason hdrop =>
    rw [h reason hdrop]
    split
    · simp [statusOfDrop]
    · simp
  next => simp

/-- The manager asks with a TTL of 64, and so drops a message only for lack of a
route. -/
theorem noRoute_decision (mgr : SessionManager) (message : OutboundMessage) (msgId : UInt64) :
    NoRoute (Session.routingFeedback msgId (mgr.decision message)) := by
  intro reason hdrop
  replace hdrop : mgr.decision message = .drop reason := hdrop
  unfold SessionManager.decision RoutingTable.decide at hdrop
  split at hdrop
  · exact absurd hdrop (by simp)
  · rw [if_neg (show ¬ (64 : UInt8) = 0 by decide)] at hdrop
    split at hdrop
    · split at hdrop
      · exact absurd hdrop (by simp)
      · exact (RoutingDecision.drop.inj hdrop).symm
    · exact (RoutingDecision.drop.inj hdrop).symm

theorem noRoute_outbound (mgr : SessionManager) (message : OutboundMessage) :
    ∀ feedback ∈ fedBack (mgr.handleOutboundMessage message), NoRoute feedback := by
  intro feedback hmem
  obtain ⟨output, houtput, heq⟩ := List.mem_filterMap.mp hmem
  cases output with
  | feedback feedback' =>
    obtain rfl := Option.some.inj heq
    unfold SessionManager.handleOutboundMessage at houtput
    split at houtput
    · exact absurd houtput (by simp)
    · rcases List.mem_append.mp houtput with hfeedback | hroute
      · rw [Option.mem_toList, Option.map_eq_some_iff] at hfeedback
        obtain ⟨msgId, _, hfeedback⟩ := hfeedback
        rw [← ManagerOutput.feedback.inj hfeedback]
        exact noRoute_decision mgr message msgId
      · unfold SessionManager.route at hroute
        split at hroute
        · split at hroute
          · exact absurd hroute (by simp)
          · exact absurd hroute (by simp)
        · exact absurd hroute (by simp)
        · exact absurd hroute (by simp)
  | send messageTx message => exact absurd heq (by simp)
  | deliver message => exact absurd heq (by simp)
  | receivedTopology update => exact absurd heq (by simp)

theorem noRoute_session (mgr : SessionManager) (registry : Registry) (event : SessionEvent) :
    ∀ feedback ∈ fedBack (mgr.handleSessionEvent registry event).2, NoRoute feedback := by
  have hnil : ∀ outputs, fedBack outputs = [] → ∀ feedback ∈ fedBack outputs, NoRoute feedback := by
    intro outputs h feedback hmem
    rw [h] at hmem
    exact absurd hmem List.not_mem_nil
  unfold SessionManager.handleSessionEvent
  cases event with
  | connected remoteNodeId =>
    dsimp only
    split
    · exact hnil _ rfl
    · exact hnil _ rfl
  | disconnected remoteNodeId =>
    cases remoteNodeId with
    | none => exact hnil _ rfl
    | some nodeId => exact hnil _ rfl
  | pong remoteNodeId rtt => exact hnil _ rfl
  | messageReceived message =>
    dsimp only
    split
    · exact hnil _ rfl
    · exact noRoute_outbound mgr message.forwarded
  | topologyUpdate update => exact hnil _ rfl
  | topologyRequest request => exact hnil _ rfl

/-- All routing feedback on its way is of this kind. -/
def NoRouteOnly (s : LocalRun) : Prop := ∀ feedback ∈ s.feedbacks, NoRoute feedback

theorem NoRouteOnly.carry {s : LocalRun} (h : NoRouteOnly s) (own : Bool)
    {outputs : List ManagerOutput} (houtputs : ∀ feedback ∈ fedBack outputs, NoRoute feedback) :
    NoRouteOnly (s.carry own outputs) := by
  intro feedback hmem
  rcases List.mem_append.mp hmem with hold | hnew
  · exact h feedback hold
  · exact houtputs feedback hnew

theorem noRouteOnly_step (toVec : DeliveryStatusMessage → Option Bytes)
    (fromSlice : Bytes → Option DeliveryStatusMessage) {s : LocalRun} (h : NoRouteOnly s)
    (event : LocalEvent) : NoRouteOnly (step toVec fromSlice s event) := by
  cases event with
  | send req now isOpen =>
    unfold LocalRun.step
    dsimp only
    split
    · exact h
    · exact h
  | takeOutbound =>
    unfold LocalRun.step
    dsimp only
    split
    next => exact h
    next message outbound _ =>
      exact NoRouteOnly.carry (s := { s with outbound }) h true (noRoute_outbound s.manager message)
  | session registry event =>
    exact NoRouteOnly.carry (s := { s with
      manager := (s.manager.handleSessionEvent registry event).1 }) h false
      (noRoute_session s.manager registry event)
  | takeInbox now =>
    unfold LocalRun.step
    dsimp only
    split
    · exact h
    · exact h
  | takeFeedback now =>
    unfold LocalRun.step
    dsimp only
    split
    next => exact h
    next feedback feedbacks hfeedbacks =>
      intro feedback' hmem
      exact h feedback' (by rw [hfeedbacks]; exact List.mem_cons_of_mem _ hmem)
  | _ => exact h

/-! ## Whole runs -/

/-- **One event** keeps the invariant, and what is gone stays gone. -/
theorem once_step {msgId : UInt64} (toVec : DeliveryStatusMessage → Option Bytes)
    (fromSlice : Bytes → Option DeliveryStatusMessage) {s : LocalRun} (h : Once msgId s)
    (hroutes : NoRouteOnly s) (event : LocalEvent) (hcalm : Calm fromSlice msgId s event) :
    Once msgId (step toVec fromSlice s event) ∧
      (Dead msgId s → Dead msgId (step toVec fromSlice s event)) := by
  cases event with
  | send req now isOpen => exact once_send toVec fromSlice h req now isOpen hcalm
  | ackMessage ack now =>
    exact h.perform _ (quiet_statusStep h.messages toVec fromSlice (.ackMessage ack now) rfl
      (written_ackMessage fromSlice msgId s.node ack now))
  | subscribe req => exact h.perform (.subscribe req) (quiet_deliveryQueue msgId h.messages _)
  | unsubscribe subId =>
    exact h.perform (.unsubscribe subId) (quiet_deliveryQueue msgId h.messages _)
  | dropReceiver subId =>
    exact h.perform (.dropReceiver subId) (quiet_deliveryQueue msgId h.messages _)
  | retryTick now =>
    exact h.perform _ (quiet_statusStep h.messages toVec fromSlice (.retryTick now) rfl
      (by simp [written]))
  | retryTake now => exact once_retryTake toVec fromSlice h now hcalm
  | retrySend now isOpen => exact once_retrySend toVec fromSlice h now isOpen
  | cleanup now =>
    exact h.perform _ (quiet_statusStep h.messages toVec fromSlice (.cleanup now) rfl
      (by simp [written]))
  | takeOutbound =>
    unfold LocalRun.step
    dsimp only
    split
    next => exact ⟨h, id⟩
    next message outbound houtbound =>
      exact h.quiet (quiet_refl msgId h.messages) Iff.rfl (weight_takeOutbound houtbound)
  | session registry event =>
    refine h.quiet (quiet_refl msgId h.messages) Iff.rfl fun subId => ?_
    have hsame := weight_session msgId
      { s with manager := (s.manager.handleSessionEvent registry event).1 }
      (s.manager.handleSessionEvent registry event).2 subId
    exact hsame.le
  | routes routingTable =>
    exact h.quiet (quiet_refl msgId h.messages) Iff.rfl fun subId => Nat.le_refl _
  | takeInbox now =>
    unfold LocalRun.step
    dsimp only
    split
    next => exact ⟨h, id⟩
    next own message inbox hinbox =>
      have hwritten : written fromSlice msgId s.node (.incoming (receivedOf message) now)
          ≠ some .undeliverable := by
        show (if incoming s.node.service.nodeId (receivedOf message) = .deliveryStatus then _
          else none) ≠ _
        split
        next hreport => exact hcalm (own, message) (by rw [hinbox]; rfl) hreport
        next => simp
      have hquiet := quiet_statusStep h.messages toVec fromSlice
        (.incoming (receivedOf message) now) rfl hwritten
      exact h.quiet hquiet Iff.rfl (weight_arrive toVec fromSlice hinbox now hquiet.unsent)
  | takeFeedback now =>
    unfold LocalRun.step
    dsimp only
    split
    next => exact ⟨h, id⟩
    next feedback feedbacks hfeedbacks =>
      have hquiet := quiet_statusStep h.messages toVec fromSlice (.routingFeedback feedback now) rfl
        ((hroutes feedback (by rw [hfeedbacks]; exact List.mem_cons_self)).written msgId)
      exact h.quiet hquiet Iff.rfl fun subId => (weight_of_unsent toVec fromSlice
        { s with feedbacks } (.status (.routingFeedback feedback now)) hquiet.unsent subId).le

/-- A node at its start: nothing was sent, and the channels are empty. -/
structure Fresh (s : LocalRun) : Prop where
  noRecords : ∀ msgId, s.node.messageTracker.lookup msgId = none
  noPending : ∀ msgId, s.node.pendingMessages.lookup msgId = none
  noneInHand : s.node.retryPass.inHand = none
  outbound : s.outbound = []
  inbox : s.inbox = []
  feedbacks : s.feedbacks = []
  handed : s.handed = []
  sentIds : s.sentIds = []

theorem Fresh.once {s : LocalRun} (h : Fresh s) (msgId : UInt64) : Once msgId s := by
  have hnotInHand : ∀ taken, s.node.retryPass.inHand ≠ some taken := by
    intro taken
    rw [h.noneInHand]
    simp
  have hunseen : s.Unseen msgId := by
    unfold Unseen copies
    rw [h.handed, h.outbound, h.inbox]
    exact ⟨fun _ hmem => absurd hmem List.not_mem_nil, rfl⟩
  have hgone : Gone msgId s := ⟨h.noPending msgId, fun _ => hnotInHand _, hunseen⟩
  refine ⟨⟨fun msgId' queued hqueued => ?_,
    fun msgId' queued htaken => absurd htaken (hnotInHand _)⟩,
    fun _ => ⟨hgone, h.noRecords msgId⟩, fun queued htaken => absurd htaken (hnotInHand _),
    fun subId => ?_, fun _ => hgone⟩
  · exact absurd ((h.noPending msgId').symm.trans hqueued) (by simp)
  · rw [unseen_iff.mp hunseen subId]
    exact Nat.zero_le 1

/-- The invariant along a run. -/
theorem once_run {msgId : UInt64} {toVec : DeliveryStatusMessage → Option Bytes}
    {fromSlice : Bytes → Option DeliveryStatusMessage} {s : LocalRun} {events : List LocalEvent}
    (h : Once msgId s ∧ NoRouteOnly s)
    (hcalm : Along (step toVec fromSlice) (Calm fromSlice msgId) s events) :
    Once msgId (events.foldl (step toVec fromSlice) s) ∧
      NoRouteOnly (events.foldl (step toVec fromSlice) s) :=
  hcalm.inv (I := fun s => Once msgId s ∧ NoRouteOnly s) (fun _ event h hcalm =>
    ⟨(once_step toVec fromSlice h.1 h.2 event hcalm).1, noRouteOnly_step toVec fromSlice h.2 event⟩)
    h

/-- A message that is gone stays gone along a run. -/
theorem dead_run {msgId : UInt64} {toVec : DeliveryStatusMessage → Option Bytes}
    {fromSlice : Bytes → Option DeliveryStatusMessage} {s : LocalRun} {events : List LocalEvent}
    (h : (Once msgId s ∧ NoRouteOnly s) ∧ Dead msgId s)
    (hcalm : Along (step toVec fromSlice) (Calm fromSlice msgId) s events) :
    Dead msgId (events.foldl (step toVec fromSlice) s) := by
  refine (hcalm.inv (I := fun s => (Once msgId s ∧ NoRouteOnly s) ∧ Dead msgId s)
    (fun _ event h hcalm => ?_) h).2
  obtain ⟨honce, hdead⟩ := once_step toVec fromSlice h.1.1 h.1.2 event hcalm
  exact ⟨⟨honce, noRouteOnly_step toVec fromSlice h.1.2 event⟩, hdead h.2⟩

/-- Only a message that was sent has a status. -/
theorem Once.sent {msgId : UInt64} {s : LocalRun} (h : Once msgId s)
    (hund : Undeliverable msgId s.node) : msgId ∈ s.sentIds := by
  by_contra hno
  unfold Undeliverable at hund
  rw [(h.unsent hno).2] at hund
  exact absurd hund (by simp)

/-- **A message to the own node is handed to each subscriber once**, and a message
that is handed to anyone is undeliverable in no state of the run, in every run from
the start of the node whose events all meet the condition. -/
theorem local_message_once (toVec : DeliveryStatusMessage → Option Bytes)
    (fromSlice : Bytes → Option DeliveryStatusMessage) (msgId : UInt64) {s : LocalRun}
    (hfresh : Fresh s) (events : List LocalEvent)
    (hcalm : Along (step toVec fromSlice) (Calm fromSlice msgId) s events) (subId : UInt64)
    (hhanded : (subId, some msgId) ∈ (events.foldl (step toVec fromSlice) s).handed) :
    (events.foldl (step toVec fromSlice) s).handed.count (subId, some msgId) = 1 ∧
      ∀ done, done <+: events →
        ¬ Undeliverable msgId (done.foldl (step toVec fromSlice) s).node := by
  have hstart : Once msgId s ∧ NoRouteOnly s := by
    refine ⟨hfresh.once msgId, fun feedback hmem => ?_⟩
    rw [hfresh.feedbacks] at hmem
    exact absurd hmem List.not_mem_nil
  have hend := once_run hstart hcalm
  constructor
  · refine Nat.le_antisymm ?_ (List.count_pos_iff.mpr hhanded)
    exact (Nat.le_add_right _ _).trans (hend.1.once subId)
  · rintro done ⟨rest, rfl⟩ hund
    obtain ⟨hdone, hrest⟩ := along_append.mp hcalm
    have hthere := once_run hstart hdone
    have hdead := dead_run ⟨hthere, hthere.1.sent hund, hthere.1.undeliverable hund⟩ hrest
    rw [List.foldl_append] at hhanded
    exact hdead.2.unseen.1 _ hhanded rfl

/-- Node 1, fresh, with the default configuration. -/
def freshLocal : LocalRun :=
  { node := freshNode
    manager := { localNodeId := 1, routingTable := .new 1 fun _ _ _ => 0, sessions := ∅ }
    outbound := [], inbox := [], feedbacks := [], handed := [], sentIds := [] }

theorem freshLocal_fresh : Fresh freshLocal :=
  ⟨fun _ => rfl, fun _ => rfl, rfl, rfl, rfl, rfl, rfl, rfl⟩

/-- A client of node 1 subscribes, another one sends message 1 to node 1, and the
message is handed over. -/
def localDelivery : List LocalEvent :=
  [.subscribe ⟨0, 0, 0⟩, .send { requestWith [] 0 with dstNode := 1 } 0 true, .takeOutbound,
    .takeInbox 0]

/-- As long as no retry pass takes it up, it is handed over once, and not
undeliverable. -/
theorem local_message_once_delivered :
    let step := LocalRun.step jsonStatus readFirst
    (localDelivery.foldl step freshLocal).handed.count (1, some 1) = 1 ∧
      ∀ done, done <+: localDelivery → ¬ Undeliverable 1 (done.foldl step freshLocal).node := by
  intro step
  have hcalm : Along step (Calm readFirst 1) freshLocal localDelivery := by
    refine ⟨trivial, fun _ => by decide, trivial, fun e he hreport => ?_, trivial⟩
    obtain rfl := Option.some.inj he
    exact absurd hreport (by decide +kernel)
  exact local_message_once jsonStatus readFirst 1 freshLocal_fresh localDelivery hcalm 1
    (by decide +kernel)

/-- A round of the retry processor at the given time, up to where the message is
handed over. -/
def localRetry (now : Nat) : List LocalEvent :=
  [.retryTick now, .retryTake now, .retrySend now true, .takeOutbound, .takeInbox now]

/-- The retry processor hands the message to the same subscriber in each of ten
rounds, and in the next one the message is undeliverable. -/
theorem local_message_again :
    let step := LocalRun.step jsonStatus readFirst
    let rounds := (List.range 10).flatMap fun k => localRetry ((k + 1) * 61 * nanosPerSec)
    let s' := (localDelivery ++ rounds).foldl step freshLocal
    s'.handed.count (1, some 1) = 11 ∧
      Undeliverable 1 ([LocalEvent.retryTick (11 * 61 * nanosPerSec),
        .retryTake (11 * 61 * nanosPerSec)].foldl step s').node := by
  decide +kernel

end MeshCore.Grpc
