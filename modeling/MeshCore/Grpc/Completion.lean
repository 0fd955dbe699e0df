import MeshCore.Grpc.Node
import MeshCore.Lib.Runs

/-!
# Completed messages

Five places write the status of a message, and none looks at the status it has.
`written` is the status an event writes to the record of a message, and
`record_statusStep` shows that this is all that happens to the record, removal by
the cleanup task apart. A completed record stays completed exactly as long as
every status written to it is one of the four completed ones, and
`completed_stays_iff` says for each kind of event when that is so.
-/

namespace MeshCore.Grpc

open MeshCore.Lib MeshCore.Wire MeshCore.Session DataNode

/-! ## What is written to a record -/

/-- The status a status message writes to the record of a message. -/
def writtenByReport (fromSlice : Bytes → Option DeliveryStatusMessage) (msgId : UInt64)
    (message : Received) : Option MessageStatus :=
  (fromSlice message.payload).bind fun d =>
    if d.originalMsgId = msgId then statusOfCode d.status else none

/-- The status routing feedback writes. -/
def writtenByFeedback (msgId : UInt64) (feedback : RoutingFeedback) : Option MessageStatus :=
  match feedback.decision with
  | .drop reason => if feedback.msgId = msgId then some (statusOfDrop reason).1 else none
  | _ => none

/-- The status the retry processor writes when it takes up the next message. -/
def writtenByTake (msgId : UInt64) (n : DataNode) : Option MessageStatus :=
  match n.retryPass.inHand, n.retryPass.todo with
  | none, next :: _ =>
    if next = msgId then (n.pendingMessages.lookup msgId).map fun queued =>
      if queued.retryCount + 1 > n.config.maxRetryAttempts then .undeliverable else .queued
    else none
  | _, _ => none

/-- The status it writes when it sends the message. -/
def writtenBySend (msgId : UInt64) (n : DataNode) (isOpen : Bool) : Option MessageStatus :=
  match n.retryPass.inHand with
  | some (taken, _) =>
    if isOpen then none else if taken = msgId then some .undeliverable else none
  | none => none

/-- The status an event writes to the record of a message. -/
def written (fromSlice : Bytes → Option DeliveryStatusMessage) (msgId : UInt64) (n : DataNode) :
    StatusEvent → Option MessageStatus
  | .incoming message _ =>
    if incoming n.service.nodeId message = .deliveryStatus then
      writtenByReport fromSlice msgId message
    else none
  | .routingFeedback feedback _ => writtenByFeedback msgId feedback
  | .ackMessage ack _ => if ack.msgId = msgId then some ack.status else none
  | .retryTake _ => writtenByTake msgId n
  | .retrySend _ isOpen => writtenBySend msgId n isOpen
  | .retryTick _ => none
  | .cleanup _ => none

/-- What may become of a record: it is as it was, or gone. -/
def Kept (before after : Option MessageRecord) : Prop :=
  ∀ record, after = some record → before = some record

theorem kept_refl (record : Option MessageRecord) : Kept record record := fun _ h => h

/-- What may become of a record to which a status is written, and nothing but what
is in `status` is. -/
def RecordStep (status : Option MessageStatus) (before after : Option MessageRecord) : Prop :=
  match status with
  | none => Kept before after
  | some status => ∃ statusMessage now,
      after = before.map fun record => record.updateStatus status statusMessage now

/-- What becomes of a record to which `status` is written, if it is not removed. -/
def Overwritten (status : Option MessageStatus) (before after : Option MessageRecord) : Prop :=
  match status with
  | none => after = before
  | some status => ∃ statusMessage now,
      after = before.map fun record => record.updateStatus status statusMessage now

theorem Overwritten.recordStep {status : Option MessageStatus}
    {before after : Option MessageRecord} (h : Overwritten status before after) :
    RecordStep status before after := by
  cases status with
  | none =>
    rw [show after = before from h]
    exact kept_refl before
  | some status => exact h

theorem Overwritten.eq_none_iff {status : Option MessageStatus}
    {before after : Option MessageRecord} (h : Overwritten status before after) :
    after = none ↔ before = none := by
  cases status with
  | none => rw [show after = before from h]
  | some status =>
    obtain ⟨statusMessage, now, rfl⟩ := h
    exact Option.map_eq_none_iff

theorem overwritten_update (tracker : MessageTracker) (msgId msgId' : UInt64)
    (status : MessageStatus) (statusMessage : String) (now : Nat) :
    Overwritten (if msgId = msgId' then some status else none) (tracker.lookup msgId')
      ((tracker.updateStatus msgId status statusMessage now).lookup msgId') := by
  rw [MessageTracker.lookup_updateStatus]
  by_cases h : msgId = msgId'
  · rw [if_pos h, if_pos h.symm, h]
    exact ⟨statusMessage, now, rfl⟩
  · rw [if_neg h, if_neg fun heq => h heq.symm]
    exact rfl

/-- A message of an application is delivered, and no record is touched. -/
theorem application_service (n : DataNode) (toVec : DeliveryStatusMessage → Option Bytes)
    (message : Received) : (n.handleApplicationMessage toVec message).node.service = n.service := by
  unfold handleApplicationMessage
  split
  · rfl
  · dsimp only
    split
    · split <;> rfl
    · rfl

/-- The record after a status message. -/
theorem record_deliveryStatus (fromSlice : Bytes → Option DeliveryStatusMessage) (msgId : UInt64)
    (n : DataNode) (message : Received) (now : Nat) :
    Overwritten (writtenByReport fromSlice msgId message) (n.messageTracker.lookup msgId)
      ((n.handleDeliveryStatusMessage fromSlice message now).messageTracker.lookup msgId) := by
  unfold writtenByReport handleDeliveryStatusMessage
  cases fromSlice message.payload with
  | none => exact rfl
  | some d =>
    rw [Option.bind_some]
    dsimp only
    cases hcode : statusOfCode d.status with
    | none =>
      rw [ite_self]
      exact rfl
    | some status =>
      -- the second update writes the same over the first
      show Overwritten _ _ (((n.messageTracker.updateStatus d.originalMsgId status d.statusMessage
        now).updateStatus d.originalMsgId status d.statusMessage now).lookup msgId)
      rw [MessageTracker.lookup_updateStatus, MessageTracker.lookup_updateStatus]
      by_cases h : d.originalMsgId = msgId
      · rw [if_pos h, if_pos h.symm, if_pos rfl, h, Option.map_map]
        exact ⟨d.statusMessage, now, rfl⟩
      · rw [if_neg h, if_neg fun heq => h heq.symm, MessageTracker.lookup_updateStatus,
          if_neg fun heq => h heq.symm]
        exact rfl

/-- The record after routing feedback. -/
theorem record_feedback (msgId : UInt64) (tracker : MessageTracker) (feedback : RoutingFeedback)
    (now : Nat) :
    Overwritten (writtenByFeedback msgId feedback) (tracker.lookup msgId)
      ((handleRoutingFeedback tracker feedback now).lookup msgId) := by
  unfold writtenByFeedback handleRoutingFeedback
  cases feedback.decision with
  | forward ecmp => exact rfl
  | «local» => exact rfl
  | drop reason => exact overwritten_update ..

/-- The record after the retry processor took up a message. -/
theorem record_retryTake (msgId : UInt64) (n : DataNode) (now : Nat) :
    Overwritten (writtenByTake msgId n) (n.messageTracker.lookup msgId)
      ((n.retryTake now).messageTracker.lookup msgId) := by
  unfold writtenByTake DataNode.retryTake
  cases n.retryPass.inHand with
  | some taken => exact rfl
  | none =>
    cases n.retryPass.todo with
    | nil => exact rfl
    | cons next todo =>
      dsimp only
      show Overwritten _ _ (AList.lookup msgId (n.service.messageQueue.retryTake n.messageTracker
        n.config n.retryPass.tick now next).2.1)
      unfold MessageQueue.retryTake
      cases hpending : n.service.messageQueue.pendingMessages.lookup next with
      | none =>
        by_cases h : next = msgId
        · rw [if_pos h, ← h, show n.pendingMessages.lookup next = none from hpending]
          exact rfl
        · rw [if_neg h]
          exact rfl
      | some queued =>
        have hstatus : (if next = msgId then (n.pendingMessages.lookup msgId).map fun queued =>
              if queued.retryCount + 1 > n.config.maxRetryAttempts then MessageStatus.undeliverable
              else .queued
            else none)
            = if next = msgId then some (if queued.retryCount + 1 > n.config.maxRetryAttempts then
                MessageStatus.undeliverable else .queued) else none := by
          by_cases h : next = msgId
          · rw [if_pos h, if_pos h, ← h, show n.pendingMessages.lookup next = _ from hpending]
            rfl
          · rw [if_neg h, if_neg h]
        rw [hstatus]
        dsimp only
        by_cases hmax : queued.retryCount + 1 > n.config.maxRetryAttempts
        · rw [if_pos hmax, if_pos hmax]
          exact overwritten_update ..
        · rw [if_neg hmax, if_neg hmax]
          exact overwritten_update ..

/-- The record after the retry processor sent a message. -/
theorem record_retrySend (msgId : UInt64) (n : DataNode) (now : Nat) (isOpen : Bool) :
    Overwritten (writtenBySend msgId n isOpen) (n.messageTracker.lookup msgId)
      ((n.retrySend now isOpen).1.messageTracker.lookup msgId) := by
  unfold writtenBySend DataNode.retrySend
  cases n.retryPass.inHand with
  | none => exact rfl
  | some taken =>
    cases isOpen with
    | true => exact rfl
    | false => exact overwritten_update ..

/-- **What an event does to the record of a message**, the cleanup task apart. -/
theorem overwritten_statusStep (toVec : DeliveryStatusMessage → Option Bytes)
    (fromSlice : Bytes → Option DeliveryStatusMessage) (msgId : UInt64) (n : DataNode)
    {event : StatusEvent} (hevent : ∀ now, event ≠ .cleanup now) :
    Overwritten (written fromSlice msgId n event) (n.messageTracker.lookup msgId)
      ((n.statusStep toVec fromSlice event).node.messageTracker.lookup msgId) := by
  cases event with
  | incoming message now =>
    show Overwritten (if incoming n.service.nodeId message = .deliveryStatus then _ else none) _
      ((n.handleIncomingMessage toVec fromSlice message now).node.messageTracker.lookup msgId)
    unfold handleIncomingMessage
    cases h : incoming n.service.nodeId message with
    | notForUs => exact rfl
    | application =>
      show ((n.handleApplicationMessage toVec message).node.service).messageTracker.lookup msgId = _
      rw [application_service]
    | deliveryStatus =>
      rw [if_pos rfl]
      exact record_deliveryStatus fromSlice msgId n message now
  | routingFeedback feedback now => exact record_feedback msgId n.messageTracker feedback now
  | ackMessage ack now => exact overwritten_update ..
  | retryTick now =>
    have htracker : (n.statusStep toVec fromSlice (.retryTick now)).node.messageTracker
        = n.messageTracker := by
      unfold statusStep
      dsimp only
      split <;> rfl
    rw [htracker]
    exact rfl
  | retryTake now => exact record_retryTake msgId n now
  | retrySend now isOpen => exact record_retrySend msgId n now isOpen
  | cleanup now => exact absurd rfl (hevent now)

/-- **What an event does to the record of a message.** -/
theorem record_statusStep (toVec : DeliveryStatusMessage → Option Bytes)
    (fromSlice : Bytes → Option DeliveryStatusMessage) (msgId : UInt64) (n : DataNode)
    (event : StatusEvent) :
    RecordStep (written fromSlice msgId n event) (n.messageTracker.lookup msgId)
      ((n.statusStep toVec fromSlice event).node.messageTracker.lookup msgId) := by
  by_cases hcleanup : ∃ now, event = .cleanup now
  · obtain ⟨now, rfl⟩ := hcleanup
    show Kept _ ((n.messageTracker.cleanup now).lookup msgId)
    rw [MessageTracker.lookup_cleanup]
    intro record h
    exact (Option.filter_eq_some_iff.mp h).1
  · exact (overwritten_statusStep toVec fromSlice msgId n
      fun now h => hcleanup ⟨now, h⟩).recordStep

/-! ## Staying completed -/

/-- The record of the message, if it exists, is completed. -/
def Completed (msgId : UInt64) (n : DataNode) : Prop :=
  ∀ record, n.messageTracker.lookup msgId = some record → record.isCompleted = true

/-- For a message with a record: a status message for it with a code the node knows
says `Delivered` or `Undeliverable`, routing feedback for it does not say that
there is no route, and the retry processor takes it up only for the last time. -/
def CompletedStays (fromSlice : Bytes → Option DeliveryStatusMessage) (msgId : UInt64)
    (n : DataNode) (event : StatusEvent) : Prop :=
  (n.messageTracker.lookup msgId).isSome = true →
    match event with
    | .incoming message _ => incoming n.service.nodeId message = .deliveryStatus →
        ∀ d status, fromSlice message.payload = some d → d.originalMsgId = msgId →
          statusOfCode d.status = some status → status = .delivered ∨ status = .undeliverable
    | .routingFeedback feedback _ => feedback.msgId = msgId → feedback.decision ≠ .drop .noRoute
    | .retryTake _ => ∀ todo queued, n.retryPass.inHand = none → n.retryPass.todo = msgId :: todo →
        n.pendingMessages.lookup msgId = some queued →
          queued.retryCount + 1 > n.config.maxRetryAttempts
    | _ => True

/-- What the node takes from a status message is final in two cases of four. -/
theorem isFinal_statusOfCode {code : Int} {status : MessageStatus}
    (h : statusOfCode code = some status) :
    status.isFinal = true ↔ status = .delivered ∨ status = .undeliverable := by
  unfold statusOfCode at h
  split at h
  · obtain rfl := Option.some.inj h
    decide
  · split at h
    · obtain rfl := Option.some.inj h
      decide
    · split at h
      · obtain rfl := Option.some.inj h
        decide
      · split at h
        · obtain rfl := Option.some.inj h
          decide
        · exact absurd h (by simp)

theorem incoming_final_iff (fromSlice : Bytes → Option DeliveryStatusMessage) (msgId : UInt64)
    (n : DataNode) (message : Received) :
    (incoming n.service.nodeId message = .deliveryStatus →
      ∀ d status, fromSlice message.payload = some d → d.originalMsgId = msgId →
        statusOfCode d.status = some status → status = .delivered ∨ status = .undeliverable) ↔
    ∀ status, (if incoming n.service.nodeId message = .deliveryStatus then
      writtenByReport fromSlice msgId message else none) = some status → status.isFinal = true := by
  by_cases hreport : incoming n.service.nodeId message = .deliveryStatus
  · rw [if_pos hreport, forall_prop_of_true hreport]
    unfold writtenByReport
    constructor
    · intro h status hwritten
      obtain ⟨d, hfrom, hcode⟩ := Option.bind_eq_some_iff.mp hwritten
      split at hcode
      next hid => exact (isFinal_statusOfCode hcode).mpr (h d status hfrom hid hcode)
      next => exact absurd hcode (by simp)
    · intro h d status hfrom hid hcode
      refine (isFinal_statusOfCode hcode).mp (h status ?_)
      rw [hfrom, Option.bind_some, if_pos hid]
      exact hcode
  · rw [if_neg hreport]
    exact iff_of_true (fun h => absurd h hreport) fun status h => absurd h (by simp)

theorem feedback_final_iff (msgId : UInt64) (feedback : RoutingFeedback) :
    (feedback.msgId = msgId → feedback.decision ≠ .drop .noRoute) ↔
      ∀ status, writtenByFeedback msgId feedback = some status → status.isFinal = true := by
  unfold writtenByFeedback
  cases feedback.decision with
  | forward ecmp => simp
  | «local» => simp
  | drop reason =>
    dsimp only
    by_cases hid : feedback.msgId = msgId
    · rw [if_pos hid, forall_prop_of_true hid]
      cases reason <;> simp [statusOfDrop, MessageStatus.isFinal]
    · rw [if_neg hid]
      exact iff_of_true (fun h => absurd h hid) fun status h => absurd h (by simp)

theorem take_final_iff (msgId : UInt64) (n : DataNode) :
    (∀ todo queued, n.retryPass.inHand = none → n.retryPass.todo = msgId :: todo →
      n.pendingMessages.lookup msgId = some queued →
        queued.retryCount + 1 > n.config.maxRetryAttempts) ↔
    ∀ status, writtenByTake msgId n = some status → status.isFinal = true := by
  unfold writtenByTake
  cases n.retryPass.inHand with
  | some taken => simp
  | none =>
    cases n.retryPass.todo with
    | nil => simp
    | cons next todo =>
      dsimp only
      by_cases hnext : next = msgId
      · rw [if_pos hnext, hnext]
        cases n.pendingMessages.lookup msgId with
        | none => simp
        | some queued =>
          rw [Option.map_some]
          constructor
          · intro h status hstatus
            rw [if_pos (h todo queued rfl rfl rfl)] at hstatus
            rw [← Option.some.inj hstatus]
            rfl
          · intro h todo' queued' _ _ hqueued
            obtain rfl := Option.some.inj hqueued
            by_contra hmax
            have hfinal := h _ rfl
            rw [if_neg hmax] at hfinal
            exact absurd hfinal (by decide)
      · rw [if_neg hnext]
        refine iff_of_true (fun todo' queued _ htodo => ?_) fun status h => absurd h (by simp)
        exact absurd (List.cons.inj htodo).1 hnext

theorem writtenBySend_undeliverable {msgId : UInt64} {n : DataNode} {isOpen : Bool}
    {status : MessageStatus} (h : writtenBySend msgId n isOpen = some status) :
    status = .undeliverable := by
  unfold writtenBySend at h
  split at h
  · split at h
    · exact absurd h (by simp)
    · split at h
      · exact (Option.some.inj h).symm
      · exact absurd h (by simp)
  · exact absurd h (by simp)

/-- The condition says that what is written is final. -/
theorem completedStays_iff (fromSlice : Bytes → Option DeliveryStatusMessage) (msgId : UInt64)
    (n : DataNode) (event : StatusEvent) :
    CompletedStays fromSlice msgId n event ↔
      ((n.messageTracker.lookup msgId).isSome = true →
        ∀ status, written fromSlice msgId n event = some status → status.isFinal = true) := by
  refine imp_congr_right fun _ => ?_
  cases event with
  | incoming message now => exact incoming_final_iff fromSlice msgId n message
  | routingFeedback feedback now => exact feedback_final_iff msgId feedback
  | ackMessage ack now =>
    refine iff_of_true trivial fun status hstatus => ?_
    have hack : (if ack.msgId = msgId then some ack.status else none) = some status := hstatus
    split at hack
    · rw [← Option.some.inj hack]
      unfold Ack.status
      cases ack.success <;> rfl
    · exact absurd hack (by simp)
  | retryTick now =>
    exact iff_of_true trivial fun status hstatus => absurd hstatus (by simp [written])
  | retryTake now => exact take_final_iff msgId n
  | retrySend now isOpen =>
    refine iff_of_true trivial fun status hstatus => ?_
    have hsend : writtenBySend msgId n isOpen = some status := hstatus
    rw [writtenBySend_undeliverable hsend]
    rfl
  | cleanup now =>
    exact iff_of_true trivial fun status hstatus => absurd hstatus (by simp [written])

/-- **One event** keeps a completed record completed exactly under the condition. -/
theorem completed_statusStep (toVec : DeliveryStatusMessage → Option Bytes)
    (fromSlice : Bytes → Option DeliveryStatusMessage) (msgId : UInt64) (n : DataNode)
    (event : StatusEvent) (h : Completed msgId n) :
    Completed msgId (n.statusStep toVec fromSlice event).node ↔
      CompletedStays fromSlice msgId n event := by
  rw [completedStays_iff]
  have hrecord := record_statusStep toVec fromSlice msgId n event
  cases hwritten : written fromSlice msgId n event with
  | none =>
    rw [hwritten] at hrecord
    exact iff_of_true (fun record hafter => h record (hrecord record hafter))
      fun _ status hstatus => absurd hstatus (by simp)
  | some status =>
    rw [hwritten] at hrecord
    obtain ⟨statusMessage, now, hafter⟩ := hrecord
    unfold Completed
    rw [hafter]
    cases n.messageTracker.lookup msgId with
    | none => simp
    | some record =>
      constructor
      · intro hcompleted _ status' hstatus'
        rw [← Option.some.inj hstatus']
        exact hcompleted _ rfl
      · intro hfinal record' hrecord'
        rw [← Option.some.inj hrecord']
        exact hfinal rfl status rfl

/-- **Completed is final exactly under the condition.** In a run of any events at a
node, from a state in which the record of a message is completed, it is completed
in every state in which it exists if and only if every event meets the condition
in the state it meets. -/
theorem completed_stays_iff (toVec : DeliveryStatusMessage → Option Bytes)
    (fromSlice : Bytes → Option DeliveryStatusMessage) (msgId : UInt64) (n : DataNode)
    (events : List StatusEvent) (h : Completed msgId n) :
    (∀ done, done <+: events →
      Completed msgId (done.foldl (fun n event => (n.statusStep toVec fromSlice event).node) n)) ↔
    Along (fun n event => (statusStep toVec fromSlice n event).node)
      (CompletedStays fromSlice msgId) n events :=
  every_state_iff_along (fun n event h => completed_statusStep toVec fromSlice msgId n event h) h

/-- The report that message 1 was delivered. -/
def deliveredReport : DeliveryStatusMessage :=
  { originalMsgId := 1, status := MessageStatus.delivered.code
    statusMessage := "Message delivered successfully to 1 subscribers" }

/-- The report of an earlier attempt that nobody was there. -/
def pendingReport : DeliveryStatusMessage :=
  { originalMsgId := 1, status := MessageStatus.pendingClient.code
    statusMessage := "No active subscribers to deliver message to" }

/-- A reader of the two. -/
def readReport (bytes : Bytes) : Option DeliveryStatusMessage :=
  [deliveredReport, pendingReport].find? fun d => jsonStatus d == some bytes

/-- A report as it arrives from node 2 at node 1. -/
def arrived (d : DeliveryStatusMessage) : Received :=
  { srcNode := 2, dstNode := 1, msgId := 0, corrId := 0
    headers := [⟨"message_type", asBytes "delivery_status"⟩]
    payload := (jsonStatus d).getD [], requireAck := false }

/-- Node 1 after it was told that message 1 was delivered. -/
def toldNode : DataNode :=
  (awaitingNode.statusStep jsonStatus readReport (.incoming (arrived deliveredReport) 1)).node

/-- Told so again, and acknowledged at the node itself, the message stays completed. -/
theorem completed_stays_delivered :
    let events : List StatusEvent := [.incoming (arrived deliveredReport) 2, .ackMessage firstAck 3]
    Completed 1 (events.foldl (fun n event => (n.statusStep jsonStatus readReport event).node)
      toldNode) := by
  intro events
  have hstart : Completed 1 toldNode := by
    intro record hrecord
    have hcompleted : (toldNode.messageTracker.lookup 1).map MessageRecord.isCompleted
        = some true := by decide +kernel
    rw [hrecord] at hcompleted
    exact Option.some.inj hcompleted
  have hread : readReport (arrived deliveredReport).payload = some deliveredReport := by
    decide +kernel
  have hevents : Along (fun n event => (statusStep jsonStatus readReport n event).node)
      (CompletedStays readReport 1) toldNode events := by
    refine ⟨fun _ _ d status hfrom _ hcode => ?_, fun _ => trivial, trivial⟩
    obtain rfl := Option.some.inj (hread.symm.trans hfrom)
    exact Or.inl (Option.some.inj hcode).symm
  exact (completed_stays_iff jsonStatus readReport 1 toldNode events hstart).mpr hevents events
    (List.prefix_refl events)

/-- The older report arrives after the newer one. -/
theorem completed_undone :
    (toldNode.messageTracker.lookup 1).map MessageRecord.isCompleted = some true ∧
    ((toldNode.statusStep jsonStatus readReport
      (.incoming (arrived pendingReport) 2)).node.messageTracker.lookup 1).map
        MessageRecord.isCompleted = some false := by
  decide +kernel

end MeshCore.Grpc
