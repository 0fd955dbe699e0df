import MeshCore.Grpc.Schedules
import MeshCore.Grpc.Waiting

/-!
# Status streams (`mesh-grpc/src/message_queue.rs`, `data.rs`)

`send_with_status_stream` leaves a sender, `status_tx`, with the message it queues. Whoever
finds the message in the queue, or has taken it out, reads the record of the message and
sends it into the stream. The stream ends when the message is dropped with its sender.

The calls are those of `Schedules.lean` with the notifications between their operations, and
with what else writes the record of the message. Between a status and its notification the
others may run, and between the notification and the removal of the message too. So a client
can see `Queued`, `Delivered` and again `Queued` before the stream ends (`StreamRuns.lean`).
A call that is left alone shows what it has written (`report_alone`).

Mirroring notes:
- The message's ID is fixed and was not in use before. `status_tx` is with the one queued
  message of this ID, wherever that is, and so it is not a field of its own.
- `get_status` and the send into the stream are one step, with the look at the pending
  message where there is one. Nobody else can send into the stream in between: a reference
  into the map keeps others from taking the message out, reports come from one task, and who
  has taken the message out has the only sender.
- Statuses go through a task that hands them on in order. The client reads until the end.
- A report may bring any status here, though `handle_delivery_status_message` knows four.
  The cleanup of the tracker may remove the record at any time: its look at the age of the
  record is left out.
-/

namespace MeshCore.Grpc

open MeshCore.Lib MeshCore.Session

/-- What the calls share, with what was sent into the stream of the message, if it has one. -/
structure StreamShared where
  queue : QueueShared
  stream : Option (List MessageStatusInfo)

namespace StreamShared

/-- The message, if it is pending. -/
def pending (s : StreamShared) (msgId : UInt64) : Option QueuedMessage :=
  s.queue.messageQueue.pendingMessages.lookup msgId

/-- What would be sent into the stream: the record, if there is one. -/
def recorded (s : StreamShared) (msgId : UInt64) : List MessageStatusInfo :=
  ((s.queue.messageTracker.lookup msgId).map MessageStatusInfo.ofRecord).toList

/-- `tx.send(MessageStatusInfo::from(&record))`, if there is a sender, and a record. -/
def notify (s : StreamShared) (msgId : UInt64) : StreamShared :=
  { s with stream := s.stream.map (· ++ s.recorded msgId) }

/-- `update_status`. -/
def updateStatus (s : StreamShared) (msgId : UInt64) (status : MessageStatus) (message : String)
    (now : Nat) : StreamShared :=
  { s with queue := { s.queue with
      messageTracker := s.queue.messageTracker.updateStatus msgId status message now } }

/-- The cleanup removes the record. -/
def removeRecord (s : StreamShared) (msgId : UInt64) : StreamShared :=
  { s with queue := { s.queue with messageTracker := s.queue.messageTracker.erase msgId } }

end StreamShared

/-- What a call has left to do for the message. -/
inductive StreamTask where
  /-- An operation that it does with or without a stream. -/
  | plain (t : QueueTask)
  /-- A retry pass shows the status it has written, and goes on if it sends the message again. -/
  | retryNotify (queued : Option QueuedMessage)
  /-- `handle_delivery_status_message` writes the status, before `handle_routing_feedback`
  does. -/
  | reportStatus (status : MessageStatus) (message : String)
  /-- `handle_routing_feedback` shows the record if the message is pending, and goes on. -/
  | feedbackNotify (status : MessageStatus)
  /-- `handle_message_delivered` or `handle_message_acked` shows it, with the message removed. -/
  | settledNotify
  /-- Routing feedback or an acknowledgment writes a status. -/
  | trackerUpdate (status : MessageStatus) (message : String)
  | trackerRemove

/-- What follows an operation: the next one, or a notification. -/
def QueueTask.follow (t next : QueueTask) (pending : Option QueuedMessage) : StreamTask :=
  match t, next with
  | retryStatus _ _, retrySend queued => .retryNotify (some queued)
  | retryStatus _ _, _ => .retryNotify none
  | feedbackStatus status _, _ => .feedbackNotify status
  | feedbackSettle status, _ =>
    if status.settles && pending.isSome then .settledNotify else .plain next
  | _, _ => .plain next

namespace StreamTask

/-- The next operation of a call. -/
def step (config : MessageQueueConfig) (msgId : UInt64) (env : StepEnv) (t : StreamTask)
    (s : StreamShared) : StreamTask × StreamShared :=
  match t with
  | plain t =>
    let stepped := t.step config msgId env s.queue
    (t.follow stepped.1 (s.pending msgId), { s with queue := stepped.2 })
  | retryNotify (some queued) => (plain (.retrySend queued), s.notify msgId)
  | retryNotify none => (plain .done, s.notify msgId)
  | reportStatus status message =>
    (plain (.feedbackStatus status message), s.updateStatus msgId status message env.now)
  | feedbackNotify status =>
    (plain (.feedbackSettle status), if (s.pending msgId).isSome then s.notify msgId else s)
  | settledNotify => (plain .done, s.notify msgId)
  | trackerUpdate status message =>
    (plain .done, s.updateStatus msgId status message env.now)
  | trackerRemove => (plain .done, s.removeRecord msgId)

/-- The call alone, for as many steps as the longest one takes. -/
def alone (config : MessageQueueConfig) (msgId : UInt64) (env : StepEnv) (t : StreamTask)
    (s : StreamShared) : StreamTask × StreamShared :=
  let next := fun p : StreamTask × StreamShared => p.1.step config msgId env p.2
  next (next (next (next (next (t, s)))))

/-- The call has the message in hand, and its sender with it. -/
def holdsTx : StreamTask → Bool
  | plain (.queueSend _) => true
  | plain (.queueInsert _) => true
  | plain (.retryStatus _ _) => true
  | retryNotify _ => true
  | plain (.retrySend _) => true
  | plain .retryFail => true
  | plain (.retryInsert _) => true
  | settledNotify => true
  | _ => false

end StreamTask

/-- The notification of a call that has the message in hand and drops it. -/
def StreamTask.isLast : StreamTask → Bool
  | settledNotify => true
  | retryNotify none => true
  | _ => false

/-! ## Schedules -/

/-- The calls that can begin after the message is being queued. -/
inductive StreamCall where
  | retryPass (tick : Nat)
  | report (status : MessageStatus) (message : String)
  | trackerUpdate (status : MessageStatus) (message : String)
  | trackerRemove

/-- What a call has to do. -/
def StreamCall.task : StreamCall → StreamTask
  | retryPass tick => .plain (.retryRemove tick)
  | report status message => .reportStatus status message
  | trackerUpdate status message => .trackerUpdate status message
  | trackerRemove => .trackerRemove

/-- One event of a schedule: a call begins, or a call does its next operation. -/
inductive StreamEvent where
  | starts (call : StreamCall)
  | steps (i : Nat) (env : StepEnv)

/-- The event is the beginning of a report. -/
def StreamEvent.isReport : StreamEvent → Bool
  | starts (.report _ _) => true
  | _ => false

/-- The calls and what they share. -/
abbrev StreamPool := Pool StreamTask StreamShared

namespace StreamPool

/-- The message is about to be queued, and the stream shows this much. -/
def start (shared : QueueShared) (queued : QueuedMessage)
    (stream : Option (List MessageStatusInfo)) : StreamPool :=
  { tasks := [.plain (.queueSend queued)], shared := { queue := shared, stream } }

/-- One event. -/
def step (config : MessageQueueConfig) (msgId : UInt64) (p : StreamPool) : StreamEvent → StreamPool
  | .starts call => p.spawn call.task
  | .steps i env => p.advance (StreamTask.step config msgId env) i

/-- A schedule. -/
def run (config : MessageQueueConfig) (msgId : UInt64) (p : StreamPool)
    (events : List StreamEvent) : StreamPool :=
  events.foldl (step config msgId) p

/-- How many have the sender: the calls that hold the message, and the queue. -/
def senders (msgId : UInt64) (p : StreamPool) : Nat :=
  p.weight (fun t => t.holdsTx.toNat) fun s => (s.pending msgId).isSome.toNat

/-- The record of the message before every event of a schedule. -/
def history (config : MessageQueueConfig) (msgId : UInt64) (p : StreamPool) :
    List StreamEvent → List MessageStatusInfo
  | [] => []
  | e :: events =>
    p.shared.recorded msgId ++ history config msgId (step config msgId p e) events

end StreamPool

/-! ## Calls alone -/

/-- `send_with_status_stream` up to `queue_message`: the message is tracked, and the stream
shows that it is queued. -/
def MeshDataService.openStream (svc : MeshDataService) (req : SendRequest) (now : Nat)
    (waitingMessages : WaitingMessages) (outbound : List OutboundMessage) : StreamPool :=
  let statusMessage := "Message queued for streaming delivery"
  .start
    { messageQueue := svc.messageQueue, waitingMessages, outbound
      messageTracker := svc.messageTracker.trackMessage svc.nextId .queued statusMessage
        req.requireAck now }
    { message := req.outbound svc.nodeId svc.nextId, retryCount := 0, queuedAt := now
      nextRetryAt := now, sendMode := req.mode, timeoutSeconds := req.timeoutSeconds }
    (some [{ msgId := svc.nextId, status := .queued, statusMessage
             timestamp := now / nanosPerSec, requireAck := req.requireAck }])

/-- `send_with_status_stream` alone, to a known node and with the outbound channel open. -/
theorem sendWithStatusStream_alone (config : MessageQueueConfig) (svc : MeshDataService)
    (req : SendRequest) (now : Nat) (waitingMessages : WaitingMessages)
    (outbound : List OutboundMessage) (hvalid : ¬ req.Invalid)
    (hknown : svc.isNodeKnown req.dstNode = true) :
    let env : StepEnv := { now, isOpen := true }
    let streamed := svc.sendWithStatusStream req now true
    ∃ shown, streamed.outcome = .ok shown ∧
      (StreamPool.run config svc.nextId (svc.openStream req now waitingMessages outbound)
          [.steps 0 env, .steps 0 env]).shared
        = { queue := { messageQueue := streamed.service.messageQueue, waitingMessages
                       messageTracker := streamed.service.messageTracker
                       outbound := outbound ++ streamed.outbound }
            stream := some shown } := by
  intro env streamed
  have hstreamed : streamed = svc.sendWithStatusStream req now true := rfl
  unfold MeshDataService.sendWithStatusStream at hstreamed
  rw [if_neg fun h => hvalid (.inl h), if_neg fun h => hvalid (.inr h), hknown,
    if_neg Bool.true_eq_false.mp] at hstreamed
  exact ⟨_, by rw [hstreamed]; rfl, by rw [hstreamed]; rfl⟩

/-- The record after a status was written to it. -/
theorem StreamShared.lookup_updateStatus {s : StreamShared} {msgId : UInt64}
    {record : MessageRecord} (h : s.queue.messageTracker.lookup msgId = some record)
    (status : MessageStatus) (message : String) (now : Nat) :
    (s.updateStatus msgId status message now).queue.messageTracker.lookup msgId
      = some (record.updateStatus status message now) := by
  unfold StreamShared.updateStatus
  dsimp only
  rw [MessageTracker.lookup_updateStatus, if_pos rfl, h]
  rfl

/-- **A report alone**, of a pending message that has a record: it shows the status, and shows
it once more if that settles the message. -/
theorem report_alone (config : MessageQueueConfig) (msgId : UInt64) (env : StepEnv)
    (status : MessageStatus) (message : String) {s : StreamShared}
    {shown : List MessageStatusInfo} {record : MessageRecord} {queued : QueuedMessage}
    (hstream : s.stream = some shown) (hpending : s.pending msgId = some queued)
    (hrecord : s.queue.messageTracker.lookup msgId = some record) :
    let info := MessageStatusInfo.ofRecord (record.updateStatus status message env.now)
    ((StreamTask.reportStatus status message).alone config msgId env s).1 = .plain .done ∧
      ((StreamTask.reportStatus status message).alone config msgId env s).2.stream
        = some (shown ++ if status.settles then [info, info] else [info]) := by
  intro info
  let s₁ := s.updateStatus msgId status message env.now
  let s₂ := s₁.updateStatus msgId status message env.now
  have hrecorded : s₂.recorded msgId = [info] := by
    unfold StreamShared.recorded
    rw [StreamShared.lookup_updateStatus (StreamShared.lookup_updateStatus hrecord ..)]
    rfl
  have hnotify : (StreamTask.feedbackNotify status).step config msgId env s₂
      = (.plain (.feedbackSettle status), s₂.notify msgId) := by
    unfold StreamTask.step
    dsimp only
    rw [show s₂.pending msgId = some queued from hpending]
    rfl
  have hshown : (s₂.notify msgId).stream = some (shown ++ [info]) := by
    unfold StreamShared.notify
    rw [hrecorded, show s₂.stream = some shown from hstream]
    rfl
  -- three steps are done, and two are left
  let p := (StreamTask.plain (.feedbackSettle status)).step config msgId env (s₂.notify msgId)
  have hrest : (StreamTask.reportStatus status message).alone config msgId env s
      = p.1.step config msgId env p.2 := by
    have hthird : ((StreamTask.plain (.feedbackStatus status message)).step config msgId env s₁)
        = (.feedbackNotify status, s₂) := rfl
    unfold StreamTask.alone
    dsimp only
    rw [show (StreamTask.reportStatus status message).step config msgId env s
      = (.plain (.feedbackStatus status message), s₁) from rfl, hthird, hnotify]
  have hfirst : p.1 = if status.settles then .settledNotify else .plain .done := by
    show (if status.settles && ((s₂.notify msgId).pending msgId).isSome then _ else _) = _
    rw [show (s₂.notify msgId).pending msgId = some queued from hpending, Option.isSome_some,
      Bool.and_true]
    rfl
  have hstream' : p.2.stream = some (shown ++ [info]) := hshown
  rw [hrest, hfirst]
  cases hsettles : status.settles with
  | true =>
    refine ⟨rfl, ?_⟩
    show p.2.stream.map (· ++ p.2.recorded msgId) = _
    rw [hstream', show p.2.recorded msgId = [info] from hrecorded]
    simp
  | false => exact ⟨rfl, hstream'⟩

/-- **A retry alone**, of a pending message that has a record: it shows one status. -/
theorem retryPass_alone (config : MessageQueueConfig) (msgId : UInt64) (env : StepEnv)
    (tick : Nat) {s : StreamShared} {shown : List MessageStatusInfo} {record : MessageRecord}
    {queued : QueuedMessage} (hstream : s.stream = some shown)
    (hpending : s.pending msgId = some queued)
    (hrecord : s.queue.messageTracker.lookup msgId = some record) :
    ∃ info : MessageStatusInfo,
      ((StreamTask.plain (.retryRemove tick)).alone config msgId env s).2.stream
        = some (shown ++ [info]) ∧
      info.status = if queued.retryCount + 1 > config.maxRetryAttempts then .undeliverable
        else .queued := by
  let taken : QueuedMessage := { queued with retryCount := queued.retryCount + 1 }
  let s₁ : StreamShared := { s with queue := { s.queue with messageQueue :=
    { pendingMessages := s.queue.messageQueue.pendingMessages.erase msgId } } }
  have hremove : (StreamTask.plain (.retryRemove tick)).step config msgId env s
      = (.plain (.retryStatus tick taken), s₁) := by
    unfold StreamTask.step QueueTask.step
    rw [show s.queue.messageQueue.pendingMessages.lookup msgId = some queued from hpending]
    rfl
  -- the last two operations show nothing
  have hshow : ∀ (status : MessageStatus) (message : String),
      ∃ info, ((s₁.updateStatus msgId status message env.now).notify msgId).stream
          = some (shown ++ [info]) ∧ info.status = status := by
    intro status message
    refine ⟨.ofRecord (record.updateStatus status message env.now), ?_, rfl⟩
    show s.stream.map (· ++ _) = _
    unfold StreamShared.recorded
    rw [StreamShared.lookup_updateStatus (show s₁.queue.messageTracker.lookup msgId = some record
      from hrecord), hstream]
    rfl
  unfold StreamTask.alone
  dsimp only
  rw [hremove]
  by_cases hlast : queued.retryCount + 1 > config.maxRetryAttempts
  · rw [if_pos hlast]
    have hstatus : (StreamTask.plain (.retryStatus tick taken)).step config msgId env s₁
        = (.retryNotify none, s₁.updateStatus msgId .undeliverable
            ("Max retry attempts (" ++ toString config.maxRetryAttempts ++ ") exceeded")
            env.now) := by
      unfold StreamTask.step QueueTask.step
      dsimp only
      rw [if_pos hlast]
      rfl
    rw [hstatus]
    exact hshow ..
  · rw [if_neg hlast]
    have hstatus : (StreamTask.plain (.retryStatus tick taken)).step config msgId env s₁
        = (.retryNotify (some { taken with
              nextRetryAt := tick + MessageQueue.retryDelay config taken.retryCount }),
            s₁.updateStatus msgId .queued
              ("Retry attempt " ++ toString taken.retryCount ++ " of "
                ++ toString config.maxRetryAttempts) env.now) := by
      unfold StreamTask.step QueueTask.step
      dsimp only
      rw [if_neg hlast]
      rfl
    rw [hstatus]
    exact hshow ..

end MeshCore.Grpc
