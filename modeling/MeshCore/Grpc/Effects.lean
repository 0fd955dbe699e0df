import MeshCore.Grpc.Completion

/-!
# What an event does to one message

The retry processor, the service and the clients work on the same pending
messages and the same records. Three kinds of events move a message: `send`, which
makes it, and the two halves of a retry (`send_cases`, `retryTake_cases`,
`retrySend_cases`). Every other event is `Quiet` for it, and so are these three
when they are about another message: the message does not become pending, is not
taken out and is not sent, and its record does not come to say `Undeliverable`
unless that is what the event wrote.
-/

namespace MeshCore.Grpc

open MeshCore.Lib MeshCore.Wire MeshCore.Session DataNode

/-! ## Quiet events -/

/-- The record of the message says `Undeliverable`. -/
def Undeliverable (msgId : UInt64) (n : DataNode) : Prop :=
  (n.messageTracker.lookup msgId).map MessageRecord.status = some .undeliverable

instance (msgId : UInt64) (n : DataNode) : Decidable (Undeliverable msgId n) :=
  inferInstanceAs (Decidable (_ = _))

/-- A message that is pending or taken out is kept under its own ID. -/
structure MessagesOk (n : DataNode) : Prop where
  pending : ∀ msgId queued, n.pendingMessages.lookup msgId = some queued →
    queued.message.msgId = some msgId
  inHand : ∀ msgId queued, n.retryPass.inHand = some (msgId, queued) →
    queued.message.msgId = some msgId

/-- A step of the service that does not send the message, take it out or make it
pending, and does not say that it is undeliverable. -/
structure Quiet (msgId : UInt64) (n n' : DataNode) (outbound : List OutboundMessage) : Prop where
  messages : MessagesOk n'
  inHand : ∀ queued, n'.retryPass.inHand = some (msgId, queued) →
    ∃ queued, n.retryPass.inHand = some (msgId, queued)
  unpended : n.pendingMessages.lookup msgId = none → n'.pendingMessages.lookup msgId = none
  untracked : n.messageTracker.lookup msgId = none → n'.messageTracker.lookup msgId = none
  status : Undeliverable msgId n' → Undeliverable msgId n
  unsent : ∀ m ∈ outbound, m.msgId ≠ some msgId

/-- What is written to a record and is not `Undeliverable` neither makes a record nor
makes it say so. -/
theorem record_quiet {status : Option MessageStatus} {before after : Option MessageRecord}
    (h : RecordStep status before after) (hstatus : status ≠ some .undeliverable) :
    (before = none → after = none) ∧
      (after.map MessageRecord.status = some .undeliverable →
        before.map MessageRecord.status = some .undeliverable) := by
  cases status with
  | none =>
    cases after with
    | none => exact ⟨fun _ => rfl, fun hnone => absurd hnone (by simp)⟩
    | some record =>
      rw [h record rfl]
      exact ⟨fun hnone => absurd hnone (by simp), id⟩
  | some status =>
    obtain ⟨statusMessage, now, rfl⟩ := h
    cases before with
    | none => exact ⟨fun _ => rfl, id⟩
    | some record =>
      refine ⟨fun hnone => absurd hnone (by simp), fun hafter => ?_⟩
      exact absurd hafter hstatus

/-- A step that does not touch the record of the message. -/
theorem Quiet.of_record {msgId : UInt64} {n n' : DataNode} {outbound : List OutboundMessage}
    (messages : MessagesOk n')
    (inHand : ∀ queued, n'.retryPass.inHand = some (msgId, queued) →
      ∃ queued, n.retryPass.inHand = some (msgId, queued))
    (unpended : n.pendingMessages.lookup msgId = none → n'.pendingMessages.lookup msgId = none)
    (hrecord : n'.messageTracker.lookup msgId = n.messageTracker.lookup msgId)
    (unsent : ∀ m ∈ outbound, m.msgId ≠ some msgId) : Quiet msgId n n' outbound where
  messages := messages
  inHand := inHand
  unpended := unpended
  untracked := hrecord.trans
  status := by
    unfold Undeliverable
    rw [hrecord]
    exact id
  unsent := unsent

/-- The node does nothing. -/
theorem quiet_refl (msgId : UInt64) {n : DataNode} (hn : MessagesOk n) : Quiet msgId n n [] :=
  .of_record hn (fun queued h => ⟨queued, h⟩) id rfl fun _ hm => absurd hm List.not_mem_nil

/-- The parts a step of the service leaves alone, or thins out: the message taken
out and the pending messages. -/
structure Thinned (n n' : DataNode) : Prop where
  pending : ∀ msgId queued, n'.pendingMessages.lookup msgId = some queued →
    n.pendingMessages.lookup msgId = some queued
  inHand : ∀ taken, n'.retryPass.inHand = some taken → n.retryPass.inHand = some taken

theorem Thinned.refl (n : DataNode) : Thinned n n := ⟨fun _ _ h => h, fun _ h => h⟩

theorem thinned_report (fromSlice : Bytes → Option DeliveryStatusMessage) (n : DataNode)
    (message : Received) (now : Nat) :
    Thinned n (n.handleDeliveryStatusMessage fromSlice message now) := by
  unfold handleDeliveryStatusMessage
  cases fromSlice message.payload with
  | none => exact Thinned.refl n
  | some d =>
    dsimp only
    cases statusOfCode d.status with
    | none => exact Thinned.refl n
    | some status =>
      refine ⟨fun msgId queued h => ?_, fun _ h => h⟩
      have hsettle : (n.service.messageQueue.settle d.originalMsgId status).pendingMessages.lookup
          msgId = some queued := h
      rw [MessageQueue.lookup_settle] at hsettle
      split at hsettle
      · exact absurd hsettle (by simp)
      · exact hsettle

/-- No status report has a message ID. -/
theorem report_msgId {n : DataNode} {toVec : DeliveryStatusMessage → Option Bytes}
    {message : Received} {status : MessageStatus} {text : String} {m : OutboundMessage}
    (h : m ∈ n.report toVec message status text) : m.msgId = none := by
  unfold DataNode.report MeshDataService.deliveryStatusToSource at h
  split at h
  · exact absurd h (List.not_mem_nil)
  · split at h
    · exact absurd h (List.not_mem_nil)
    · rw [List.mem_singleton.mp h]

/-- A message of an application changes the subscribers only. -/
theorem thinned_application (n : DataNode) (toVec : DeliveryStatusMessage → Option Bytes)
    (message : Received) :
    Thinned n (n.handleApplicationMessage toVec message).node ∧
      ∀ m ∈ (n.handleApplicationMessage toVec message).outbound, m.msgId = none := by
  unfold handleApplicationMessage
  split
  · exact ⟨Thinned.refl n, fun m hm => report_msgId hm⟩
  · dsimp only
    split
    · split
      · exact ⟨⟨fun _ _ h => h, fun _ h => h⟩, fun m hm => report_msgId hm⟩
      · exact ⟨⟨fun _ _ h => h, fun _ h => h⟩, fun m hm => report_msgId hm⟩
    · exact ⟨⟨fun _ _ h => h, fun _ h => h⟩, fun m hm => report_msgId hm⟩

theorem Thinned.messages {n n' : DataNode} (h : Thinned n n') (hn : MessagesOk n) :
    MessagesOk n' :=
  ⟨fun msgId queued hqueued => hn.pending msgId queued (h.pending msgId queued hqueued),
    fun msgId queued hqueued => hn.inHand msgId queued (h.inHand _ hqueued)⟩

/-- A step that thins the node out, and writes no `Undeliverable`. -/
theorem Thinned.quiet {msgId : UInt64} {n n' : DataNode} {outbound : List OutboundMessage}
    {status : Option MessageStatus} (h : Thinned n n') (hn : MessagesOk n)
    (hrecord : RecordStep status (n.messageTracker.lookup msgId) (n'.messageTracker.lookup msgId))
    (hstatus : status ≠ some .undeliverable) (hout : ∀ m ∈ outbound, m.msgId = none) :
    Quiet msgId n n' outbound where
  messages := h.messages hn
  inHand := fun queued hqueued => ⟨queued, h.inHand _ hqueued⟩
  unpended := by
    intro hnone
    rw [Option.eq_none_iff_forall_ne_some] at hnone ⊢
    exact fun queued hqueued => hnone queued (h.pending msgId queued hqueued)
  untracked := (record_quiet hrecord hstatus).1
  status := (record_quiet hrecord hstatus).2
  unsent := fun m hm hid => absurd ((hout m hm).symm.trans hid) (by simp)

/-- The retry processor goes on with a message. -/
def DataNode.StatusEvent.isRetry : StatusEvent → Bool
  | .retryTake _ => true
  | .retrySend _ _ => true
  | _ => false

/-- All other events thin the node out, and send status messages only. -/
theorem thinned_statusStep (toVec : DeliveryStatusMessage → Option Bytes)
    (fromSlice : Bytes → Option DeliveryStatusMessage) (n : DataNode) (event : StatusEvent)
    (hevent : event.isRetry = false) :
    Thinned n (n.statusStep toVec fromSlice event).node ∧
      ∀ m ∈ (n.statusStep toVec fromSlice event).outbound, m.msgId = none := by
  cases event with
  | incoming message now =>
    show Thinned n (n.handleIncomingMessage toVec fromSlice message now).node ∧
      ∀ m ∈ (n.handleIncomingMessage toVec fromSlice message now).outbound, m.msgId = none
    unfold handleIncomingMessage
    split
    · exact ⟨Thinned.refl n, fun _ hm => absurd hm List.not_mem_nil⟩
    · exact ⟨thinned_report fromSlice n message now, fun _ hm => absurd hm List.not_mem_nil⟩
    · exact thinned_application n toVec message
  | routingFeedback feedback now =>
    exact ⟨⟨fun _ _ h => h, fun _ h => h⟩, fun _ hm => absurd hm List.not_mem_nil⟩
  | ackMessage ack now =>
    refine ⟨⟨fun _ _ h => h, fun _ h => h⟩, fun m hm => ?_⟩
    obtain ⟨srcNode, msgId, success, message⟩ := ack
    have hmem : m ∈ (MeshDataService.deliveryStatusToSource _ toVec srcNode msgId
      (Ack.status ⟨srcNode, msgId, success, message⟩)
      (Ack.statusMessage ⟨srcNode, msgId, success, message⟩)).toList := hm
    unfold MeshDataService.deliveryStatusToSource at hmem
    split at hmem
    · exact absurd hmem List.not_mem_nil
    · rw [List.mem_singleton.mp hmem]
  | retryTick now =>
    refine ⟨⟨fun msgId queued h => ?_, fun taken h => ?_⟩, fun _ hm => absurd hm List.not_mem_nil⟩
    · unfold statusStep at h
      dsimp only at h
      split at h
      · exact h
      · exact h
    · unfold statusStep at h
      dsimp only at h
      split at h
      · exact absurd h (by simp)
      · exact h
  | retryTake now => exact absurd (show true = false from hevent) (by decide)
  | retrySend now isOpen => exact absurd (show true = false from hevent) (by decide)
  | cleanup now =>
    exact ⟨⟨fun _ _ h => h, fun _ h => h⟩, fun _ hm => absurd hm List.not_mem_nil⟩

/-- A status event is quiet if it writes no `Undeliverable`, retries apart. -/
theorem quiet_statusStep {msgId : UInt64} {n : DataNode} (hn : MessagesOk n)
    (toVec : DeliveryStatusMessage → Option Bytes)
    (fromSlice : Bytes → Option DeliveryStatusMessage) (event : StatusEvent)
    (hevent : event.isRetry = false)
    (hstatus : written fromSlice msgId n event ≠ some .undeliverable) :
    Quiet msgId n (n.statusStep toVec fromSlice event).node
      (n.statusStep toVec fromSlice event).outbound := by
  obtain ⟨hthin, hout⟩ := thinned_statusStep toVec fromSlice n event hevent
  exact hthin.quiet hn (record_statusStep toVec fromSlice msgId n event) hstatus hout

/-- A change of the subscribers is quiet. -/
theorem quiet_deliveryQueue (msgId : UInt64) {n : DataNode} (hn : MessagesOk n)
    (deliveryQueue : DeliveryQueue) : Quiet msgId n { n with deliveryQueue } [] :=
  .of_record ⟨hn.pending, hn.inHand⟩ (fun queued h => ⟨queued, h⟩) id rfl
    fun _ hm => absurd hm List.not_mem_nil

/-- An acknowledgment does not say that a message is undeliverable. -/
theorem written_ackMessage (fromSlice : Bytes → Option DeliveryStatusMessage) (msgId : UInt64)
    (n : DataNode) (ack : Ack) (now : Nat) :
    written fromSlice msgId n (.ackMessage ack now) ≠ some .undeliverable := by
  show (if ack.msgId = msgId then some ack.status else none) ≠ _
  unfold Ack.status
  split
  · cases ack.success <;> simp
  · simp

/-! ## Retries -/

/-- **What the retry processor can do when it takes up the next message:** nothing
that shows, or it takes the message out for good, or to send it. -/
theorem retryTake_cases (n : DataNode) (now : Nat) :
    ((n.retryTake now).service = n.service ∧
      (∀ taken, (n.retryTake now).retryPass.inHand = some taken →
        n.retryPass.inHand = some taken) ∧
      ∀ msgId, n.retryPass.inHand = none → n.retryPass.todo.head? = some msgId →
        n.pendingMessages.lookup msgId = none) ∨
    ∃ msgId todo queued status text,
      n.retryPass.inHand = none ∧ n.retryPass.todo = msgId :: todo ∧
      n.pendingMessages.lookup msgId = some queued ∧
      (n.retryTake now).pendingMessages = n.pendingMessages.erase msgId ∧
      (n.retryTake now).messageTracker = n.messageTracker.updateStatus msgId status text now ∧
      ((n.retryTake now).retryPass.inHand = none ∨
        status = .queued ∧ ∃ queued', (n.retryTake now).retryPass.inHand = some (msgId, queued') ∧
          queued'.message = queued.message) := by
  unfold DataNode.retryTake
  cases hinHand : n.retryPass.inHand with
  | some taken =>
    exact Or.inl ⟨rfl, fun _ h => hinHand.symm.trans h, fun _ hnone => absurd hnone (by simp)⟩
  | none =>
    cases htodo : n.retryPass.todo with
    | nil =>
      exact Or.inl ⟨rfl, fun _ h => hinHand.symm.trans h, fun _ _ hhead => absurd hhead (by simp)⟩
    | cons msgId todo =>
      dsimp only
      unfold MessageQueue.retryTake
      cases hpending : n.service.messageQueue.pendingMessages.lookup msgId with
      | none =>
        refine Or.inl ⟨rfl, fun _ h => absurd h (by simp), fun msgId' _ hhead => ?_⟩
        rw [← Option.some.inj hhead]
        exact hpending
      | some queued =>
        right
        dsimp only
        split
        · exact ⟨msgId, todo, queued, _, _, rfl, rfl, hpending, rfl, rfl, Or.inl rfl⟩
        · exact ⟨msgId, todo, queued, _, _, rfl, rfl, hpending, rfl, rfl,
            Or.inr ⟨rfl, _, rfl, rfl⟩⟩

/-- **What it can do when it sends:** nothing, or it sends the message and makes it
pending again, or it cannot send it and says so. -/
theorem retrySend_cases (n : DataNode) (now : Nat) (isOpen : Bool) :
    n.retryPass.inHand = none ∧ n.retrySend now isOpen = (n, []) ∨
    ∃ msgId queued, n.retryPass.inHand = some (msgId, queued) ∧
      (n.retrySend now isOpen).1.retryPass.inHand = none ∧
      ((n.retrySend now isOpen).1.pendingMessages = n.pendingMessages.insert msgId queued ∧
          (n.retrySend now isOpen).1.messageTracker = n.messageTracker ∧
          (n.retrySend now isOpen).2 = [queued.message] ∨
        (n.retrySend now isOpen).1.pendingMessages = n.pendingMessages ∧
          (n.retrySend now isOpen).1.messageTracker = n.messageTracker.updateStatus msgId
            .undeliverable "Failed to retry: channel closed" now ∧
          (n.retrySend now isOpen).2 = []) := by
  unfold DataNode.retrySend
  cases hinHand : n.retryPass.inHand with
  | none => exact Or.inl ⟨rfl, rfl⟩
  | some taken =>
    obtain ⟨msgId, queued⟩ := taken
    refine Or.inr ⟨msgId, queued, rfl, rfl, ?_⟩
    dsimp only
    unfold MessageQueue.retrySend
    cases isOpen with
    | true => exact Or.inl ⟨rfl, rfl, rfl⟩
    | false => exact Or.inr ⟨rfl, rfl, rfl⟩

theorem retryTake_messages {n : DataNode} (hn : MessagesOk n) (now : Nat) :
    MessagesOk (n.retryTake now) := by
  rcases retryTake_cases n now with ⟨hservice, hinHand, _⟩ |
    ⟨msgId, todo, queued, status, text, _, _, hqueued, hpending, _, hinHand⟩
  · refine ⟨fun msgId queued hqueued => ?_, fun msgId queued htaken => ?_⟩
    · unfold pendingMessages at hqueued
      rw [hservice] at hqueued
      exact hn.pending msgId queued hqueued
    · exact hn.inHand msgId queued (hinHand _ htaken)
  · refine ⟨fun msgId' queued' hqueued' => ?_, fun msgId' queued' htaken => ?_⟩
    · rw [hpending, MessageQueue.lookup_erase] at hqueued'
      split at hqueued'
      · exact absurd hqueued' (by simp)
      · exact hn.pending msgId' queued' hqueued'
    · rcases hinHand with hnone | ⟨_, again, hagain, hmessage⟩
      · exact absurd (hnone.symm.trans htaken) (by simp)
      · obtain ⟨rfl, rfl⟩ := Prod.mk.inj (Option.some.inj (hagain.symm.trans htaken))
        rw [hmessage]
        exact hn.pending msgId queued hqueued

theorem retrySend_messages {n : DataNode} (hn : MessagesOk n) (now : Nat) (isOpen : Bool) :
    MessagesOk (n.retrySend now isOpen).1 := by
  rcases retrySend_cases n now isOpen with ⟨_, hsame⟩ | ⟨msgId, queued, htaken, hnone, hrest⟩
  · rw [hsame]
    exact hn
  · refine ⟨fun msgId' queued' hqueued' => ?_, fun msgId' queued' h => ?_⟩
    · rcases hrest with ⟨hpending, _, _⟩ | ⟨hpending, _, _⟩
      · rw [hpending, HashMap.lookup_insert_ite] at hqueued'
        split at hqueued'
        next h =>
          rw [← Option.some.inj hqueued', h]
          exact hn.inHand msgId queued htaken
        next => exact hn.pending msgId' queued' hqueued'
      · rw [hpending] at hqueued'
        exact hn.pending msgId' queued' hqueued'
    · exact absurd (hnone.symm.trans h) (by simp)

/-- What a status written to another message does to the record: nothing. -/
theorem record_other {msgId msgId' : UInt64} (h : msgId' ≠ msgId) (tracker : MessageTracker)
    (status : MessageStatus) (text : String) (now : Nat) :
    (tracker.updateStatus msgId status text now).lookup msgId' = tracker.lookup msgId' := by
  rw [MessageTracker.lookup_updateStatus, if_neg h]

/-- Taking up a message is quiet for every message but that one. -/
theorem quiet_retryTake {msgId : UInt64} {n : DataNode} (hn : MessagesOk n) (now : Nat)
    (hother : n.retryPass.inHand = none → n.retryPass.todo.head? = some msgId →
      n.pendingMessages.lookup msgId = none) :
    Quiet msgId n (n.retryTake now) [] := by
  have hmessages := retryTake_messages hn now
  rcases retryTake_cases n now with ⟨hservice, hinHand, _⟩ |
    ⟨msgId', todo, queued, status, text, hnone, htodo, hqueued, hpending, htracker, hinHand⟩
  · refine .of_record hmessages (fun queued h => ⟨queued, hinHand _ h⟩) (fun h => ?_) ?_
      fun _ hm => absurd hm List.not_mem_nil
    · unfold pendingMessages
      rw [hservice]
      exact h
    · unfold messageTracker
      rw [hservice]
  · have hne : msgId ≠ msgId' := by
      intro heq
      rw [heq, htodo] at hother
      exact absurd ((hother hnone rfl).symm.trans hqueued) (by simp)
    refine .of_record hmessages (fun queued' h => ?_) (fun h => ?_) ?_
      fun _ hm => absurd hm List.not_mem_nil
    · rcases hinHand with hnone' | ⟨_, again, hagain, _⟩
      · exact absurd (hnone'.symm.trans h) (by simp)
      · exact absurd (Prod.mk.inj (Option.some.inj (hagain.symm.trans h))).1.symm hne
    · rw [hpending, MessageQueue.lookup_erase, if_neg hne]
      exact h
    · rw [htracker, record_other hne]

/-- So is sending it. -/
theorem quiet_retrySend {msgId : UInt64} {n : DataNode} (hn : MessagesOk n) (now : Nat)
    (isOpen : Bool) (hother : ∀ queued, n.retryPass.inHand ≠ some (msgId, queued)) :
    Quiet msgId n (n.retrySend now isOpen).1 (n.retrySend now isOpen).2 := by
  have hmessages := retrySend_messages hn now isOpen
  rcases retrySend_cases n now isOpen with ⟨_, hsame⟩ | ⟨msgId', queued, htaken, hnone, hrest⟩
  · rw [hsame]
    exact quiet_refl msgId hn
  · have hne : msgId ≠ msgId' := by
      intro heq
      rw [← heq] at htaken
      exact hother queued htaken
    rcases hrest with ⟨hpending, htracker, hout⟩ | ⟨hpending, htracker, hout⟩
    · refine .of_record hmessages (fun queued' h => absurd (hnone.symm.trans h) (by simp))
        (fun h => ?_) (by rw [htracker]) fun m hm hid => ?_
      · rw [hpending, HashMap.lookup_insert_ite, if_neg hne]
        exact h
      · rw [hout] at hm
        rw [List.mem_singleton.mp hm, hn.inHand msgId' queued htaken] at hid
        exact hne (Option.some.inj hid).symm
    · refine .of_record hmessages (fun queued' h => absurd (hnone.symm.trans h) (by simp))
        (fun h => ?_) (by rw [htracker, record_other hne]) fun m hm => ?_
      · rw [hpending]
        exact h
      · rw [hout] at hm
        exact absurd hm List.not_mem_nil

/-! ## Sending -/

/-- The tracker with a record for the message a call of `send` gave an ID. -/
def Tracked (svc svc' : MeshDataService) (record : MessageRecord) : Prop :=
  ∀ msgId, svc'.messageTracker.lookup msgId
    = if msgId = svc.nextId then some record else svc.messageTracker.lookup msgId

theorem Tracked.update {svc svc' : MeshDataService} {record : MessageRecord}
    (h : Tracked svc svc' record) (status : MessageStatus) (text : String) (now : Nat) :
    Tracked svc { svc' with
      messageTracker := svc'.messageTracker.updateStatus svc.nextId status text now }
      (record.updateStatus status text now) := by
  intro msgId
  refine (MessageTracker.lookup_updateStatus ..).trans ?_
  rw [h, if_pos rfl, h]
  split
  · rfl
  · rfl

/-- **What `send` can do:** nothing, or give out an ID and track it; and in that case
the message is made pending and sent, or not. -/
theorem send_cases (svc : MeshDataService) (req : SendRequest) (now : Nat) (isOpen : Bool) :
    (svc.send req now isOpen).service = svc ∧ (svc.send req now isOpen).outbound = [] ∨
    (svc.send req now isOpen).service.nextId = svc.nextId + 1 ∧
      ∃ record, Tracked svc (svc.send req now isOpen).service record ∧
        ((svc.send req now isOpen).service.messageQueue = svc.messageQueue ∧
            (svc.send req now isOpen).outbound = [] ∨
          record.status = .queued ∧ ∃ queued,
            (svc.send req now isOpen).service.messageQueue.pendingMessages
              = svc.messageQueue.pendingMessages.insert svc.nextId queued ∧
            queued.message.msgId = some svc.nextId ∧
            (svc.send req now isOpen).outbound = [queued.message]) := by
  have htrack : ∀ status text, Tracked svc (svc.tracked req status text now)
      (.new svc.nextId status text req.requireAck now) :=
    fun status text msgId => HashMap.lookup_insert_ite svc.messageTracker svc.nextId msgId _
  rcases svc.send_outcomes req now isOpen with ⟨-, text, hsend⟩ | ⟨text, hsend⟩ |
    ⟨-, -, text, hsend⟩ | ⟨-, -, text, hsend⟩ | ⟨queued, hmessage, hsend⟩
  · rw [hsend]
    exact .inl ⟨rfl, rfl⟩
  · rw [hsend]
    exact .inr ⟨rfl, _, htrack _ _, .inl ⟨rfl, rfl⟩⟩
  · rw [hsend]
    exact .inr ⟨rfl, _, htrack _ _, .inl ⟨rfl, rfl⟩⟩
  · rw [hsend]
    exact .inr ⟨rfl, _, (htrack _ _).update .undeliverable _ now, .inl ⟨rfl, rfl⟩⟩
  · rw [hsend]
    refine .inr ⟨rfl, _, htrack _ _, .inr ⟨rfl, queued, rfl, ?_, ?_⟩⟩
    · rw [hmessage]
      rfl
    · rw [hmessage]

theorem send_messages {n : DataNode} (hn : MessagesOk n) (req : SendRequest) (now : Nat)
    (isOpen : Bool) : MessagesOk { n with service := (n.service.send req now isOpen).service } := by
  refine ⟨fun msgId queued hqueued => ?_, hn.inHand⟩
  replace hqueued : (n.service.send req now isOpen).service.messageQueue.pendingMessages.lookup
    msgId = some queued := hqueued
  rcases send_cases n.service req now isOpen with ⟨hservice, _⟩ |
    ⟨_, _, _, ⟨hqueue, _⟩ | ⟨_, sent, hpending, hmessage, _⟩⟩
  · rw [hservice] at hqueued
    exact hn.pending msgId queued hqueued
  · rw [hqueue] at hqueued
    exact hn.pending msgId queued hqueued
  · rw [hpending, HashMap.lookup_insert_ite] at hqueued
    split at hqueued
    next h =>
      rw [← Option.some.inj hqueued, h]
      exact hmessage
    next => exact hn.pending msgId queued hqueued

/-- Sending a message is quiet for every other message. -/
theorem quiet_send {msgId : UInt64} {n : DataNode} (hn : MessagesOk n) (req : SendRequest)
    (now : Nat) (isOpen : Bool)
    (hother : (n.service.send req now isOpen).service ≠ n.service → msgId ≠ n.service.nextId) :
    Quiet msgId n { n with service := (n.service.send req now isOpen).service }
      (n.service.send req now isOpen).outbound := by
  have hmessages := send_messages hn req now isOpen
  rcases send_cases n.service req now isOpen with ⟨hservice, hout⟩ |
    ⟨hnext, record, htracked, hrest⟩
  · rw [hservice, hout]
    exact quiet_refl msgId hn
  · have hne : msgId ≠ n.service.nextId := by
      refine hother fun hsame => ?_
      rw [hsame] at hnext
      exact absurd hnext (by simp)
    refine .of_record hmessages (fun queued h => ⟨queued, h⟩) (fun h => ?_)
      ((htracked msgId).trans (if_neg hne)) fun m hm hid => ?_
    · show (n.service.send req now isOpen).service.messageQueue.pendingMessages.lookup msgId = none
      rcases hrest with ⟨hqueue, _⟩ | ⟨_, sent, hpending, _, _⟩
      · rw [hqueue]
        exact h
      · rw [hpending, HashMap.lookup_insert_ite, if_neg hne]
        exact h
    · rcases hrest with ⟨_, hout⟩ | ⟨_, sent, _, hmessage, hout⟩
      · rw [hout] at hm
        exact absurd hm List.not_mem_nil
      · rw [hout] at hm
        rw [List.mem_singleton.mp hm, hmessage] at hid
        exact hne (Option.some.inj hid).symm

end MeshCore.Grpc
