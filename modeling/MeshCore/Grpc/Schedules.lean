import MeshCore.Grpc.Queue
import MeshCore.Lib.Pool
import MeshCore.Lib.Runs

/-!
# Retries and statuses at the same time

`queue_message`, a pass of the retry processor and `handle_routing_feedback` run in
different tasks. Each map operation and each send is atomic, and between any two of
them the others may run. `QueueTask` is what such a call has left to do for one
message, and `QueueTask.step` its next operation; left alone, the calls do what
their definitions say (`queue_alone`, `retry_alone`, `feedback_alone`).

A call that has sent the message, or has taken it out to send it again, will put
it among the pending messages afterwards. It `holds` the message. A status that
takes the message out while some call holds it takes out nothing, and the message
is pending again when that call is done. If none does, the message is gone for
good (`removed_for_good`).

Mirroring notes:
- The message's ID is fixed. Other messages are other entries of the same maps.
- A status for a message that waits for a node or a client reads the pending
  entry and writes the waiting list in one step.
-/

namespace MeshCore.Grpc

open MeshCore.Lib MeshCore.Session

/-- What the tasks share, with everything put on the outbound channel so far. -/
structure QueueShared where
  messageQueue : MessageQueue
  waitingMessages : WaitingMessages
  messageTracker : MessageTracker
  outbound : List OutboundMessage

/-- What a call has left to do for the message. -/
inductive QueueTask where
  /-- `queue_message`: send, and then insert. -/
  | queueSend (queued : QueuedMessage)
  | queueInsert (queued : QueuedMessage)
  /-- A retry pass: remove, write the status, send, and insert again. -/
  | retryRemove (tick : Nat)
  | retryStatus (tick : Nat) (queued : QueuedMessage)
  | retrySend (queued : QueuedMessage)
  | retryFail
  | retryInsert (queued : QueuedMessage)
  /-- `handle_routing_feedback`: write the status, and then act on it. -/
  | feedbackStatus (status : MessageStatus) (message : String)
  | feedbackSettle (status : MessageStatus)
  | done

/-- What a step takes from outside: the time, and whether the outbound channel has a
receiver. -/
structure StepEnv where
  now : Nat
  isOpen : Bool

namespace QueueTask

/-- The next operation of a call. -/
def step (config : MessageQueueConfig) (msgId : UInt64) (env : StepEnv) (t : QueueTask)
    (s : QueueShared) : QueueTask × QueueShared :=
  match t with
  | queueSend queued =>
    if env.isOpen then
      (queueInsert queued, { s with outbound := s.outbound ++ [queued.message] })
    else (done, s)
  | queueInsert queued =>
    (done, { s with messageQueue :=
      { pendingMessages := s.messageQueue.pendingMessages.insert msgId queued } })
  | retryRemove tick =>
    match s.messageQueue.pendingMessages.lookup msgId with
    | none => (done, s)
    | some queued =>
      (retryStatus tick { queued with retryCount := queued.retryCount + 1 },
        { s with messageQueue :=
          { pendingMessages := s.messageQueue.pendingMessages.erase msgId } })
  | retryStatus tick queued =>
    if queued.retryCount > config.maxRetryAttempts then
      (done, { s with
        messageTracker := s.messageTracker.updateStatus msgId .undeliverable
          ("Max retry attempts (" ++ toString config.maxRetryAttempts ++ ") exceeded") env.now })
    else
      (retrySend { queued with
          nextRetryAt := tick + MessageQueue.retryDelay config queued.retryCount },
        { s with
          messageTracker := s.messageTracker.updateStatus msgId .queued
            ("Retry attempt " ++ toString queued.retryCount ++ " of "
              ++ toString config.maxRetryAttempts) env.now })
  | retrySend queued =>
    if env.isOpen then
      (retryInsert queued, { s with outbound := s.outbound ++ [queued.message] })
    else (retryFail, s)
  | retryFail =>
    (done, { s with
      messageTracker := s.messageTracker.updateStatus msgId .undeliverable
        "Failed to retry: channel closed" env.now })
  | retryInsert queued =>
    (done, { s with messageQueue :=
      { pendingMessages := s.messageQueue.pendingMessages.insert msgId queued } })
  | feedbackStatus status message =>
    (feedbackSettle status,
      { s with messageTracker := s.messageTracker.updateStatus msgId status message env.now })
  | feedbackSettle status =>
    (done, { s with
      messageQueue := s.messageQueue.settle msgId status
      waitingMessages := s.messageQueue.await s.waitingMessages msgId status })
  | done => (done, s)

/-- The call will put the message among the pending ones. -/
def holds (config : MessageQueueConfig) : QueueTask → Bool
  | queueSend _ => true
  | queueInsert _ => true
  | retryStatus _ queued => queued.retryCount ≤ config.maxRetryAttempts
  | retrySend _ => true
  | retryInsert _ => true
  | _ => false

/-- The call has nothing left to do. -/
def finished : QueueTask → Bool
  | done => true
  | _ => false

/-- The call alone, for as many steps as the longest one takes. -/
def alone (config : MessageQueueConfig) (msgId : UInt64) (env : StepEnv) (t : QueueTask)
    (s : QueueShared) : QueueTask × QueueShared :=
  let next := fun p : QueueTask × QueueShared => p.1.step config msgId env p.2
  next (next (next (next (t, s))))

/-- `queue_message` alone. -/
theorem queue_alone (config : MessageQueueConfig) (msgId : UInt64) (env : StepEnv)
    (s : QueueShared) (message : OutboundMessage) (sendMode : SendMode) (timeoutSeconds : UInt32)
    (hid : message.msgId = some msgId) {q : MessageQueue}
    (h : s.messageQueue.queueMessage message sendMode timeoutSeconds env.now env.isOpen = .ok q) :
    (queueSend { message, retryCount := 0, queuedAt := env.now, nextRetryAt := env.now, sendMode,
                 timeoutSeconds }).alone config msgId env s
      = (done, { s with messageQueue := q, outbound := s.outbound ++ [message] }) := by
  unfold MessageQueue.queueMessage at h
  rw [hid] at h
  dsimp only at h
  unfold alone step
  cases hopen : env.isOpen with
  | false =>
    rw [hopen] at h
    cases h
  | true =>
    rw [hopen] at h
    cases h
    rfl

/-- One message of a retry pass alone. -/
theorem retry_alone (config : MessageQueueConfig) (msgId : UInt64) (env : StepEnv) (tick : Nat)
    (s : QueueShared) :
    (retryRemove tick).alone config msgId env s =
      let (q, tracker, queued) :=
        s.messageQueue.retryTake s.messageTracker config tick env.now msgId
      match queued with
      | none => (done, { s with messageQueue := q, messageTracker := tracker })
      | some queued =>
        let (q, tracker, outbound) := q.retrySend tracker env.now msgId queued env.isOpen
        (done, { s with
          messageQueue := q, messageTracker := tracker, outbound := s.outbound ++ outbound }) := by
  unfold alone MessageQueue.retryTake
  dsimp only
  cases hpending : s.messageQueue.pendingMessages.lookup msgId with
  | none =>
    have hremove : (retryRemove tick).step config msgId env s = (done, s) := by
      unfold step
      rw [hpending]
    rw [hremove]
    rfl
  | some queued =>
    have hremove : (retryRemove tick).step config msgId env s
        = (retryStatus tick { queued with retryCount := queued.retryCount + 1 },
          { s with messageQueue :=
            { pendingMessages := s.messageQueue.pendingMessages.erase msgId } }) := by
      unfold step
      rw [hpending]
    rw [hremove]
    dsimp only
    by_cases hmax : queued.retryCount + 1 > config.maxRetryAttempts
    · rw [if_pos hmax]
      dsimp only [step]
      rw [if_pos hmax]
    · rw [if_neg hmax]
      dsimp only [step]
      rw [if_neg hmax]
      unfold MessageQueue.retrySend
      cases env.isOpen with
      | true => rfl
      | false => simp only [Bool.false_eq_true, if_false, List.append_nil]

/-- `handle_routing_feedback` alone. -/
theorem feedback_alone (config : MessageQueueConfig) (msgId : UInt64) (env : StepEnv)
    (status : MessageStatus) (message : String) (s : QueueShared) :
    (feedbackStatus status message).alone config msgId env s =
      let (messageQueue, waitingMessages, messageTracker) :=
        s.messageQueue.handleRoutingFeedback s.waitingMessages s.messageTracker msgId status
          message env.now
      (done, { s with messageQueue, waitingMessages, messageTracker }) := rfl

/-- **A call that does not hold the message**, while it is not pending, neither sends
it nor comes to hold it nor makes it pending. -/
theorem free_step (config : MessageQueueConfig) (msgId : UInt64) (env : StepEnv) (t : QueueTask)
    (s : QueueShared) (hfree : t.holds config = false)
    (hgone : s.messageQueue.pendingMessages.lookup msgId = none) :
    ((t.step config msgId env s).1.holds config = false ∧
      (t.step config msgId env s).2.messageQueue.pendingMessages.lookup msgId = none) ∧
    (t.step config msgId env s).2.outbound = s.outbound := by
  cases t with
  | queueSend queued => exact absurd hfree (by simp [holds])
  | queueInsert queued => exact absurd hfree (by simp [holds])
  | retryRemove tick =>
    unfold step
    rw [hgone]
    exact ⟨⟨rfl, hgone⟩, rfl⟩
  | retryStatus tick queued =>
    have hmax : queued.retryCount > config.maxRetryAttempts := by
      have hnot : ¬ queued.retryCount ≤ config.maxRetryAttempts := by simpa [holds] using hfree
      exact UInt32.not_le.mp hnot
    unfold step
    dsimp only
    rw [if_pos hmax]
    exact ⟨⟨rfl, hgone⟩, rfl⟩
  | retrySend queued => exact absurd hfree (by simp [holds])
  | retryFail => exact ⟨⟨rfl, hgone⟩, rfl⟩
  | retryInsert queued => exact absurd hfree (by simp [holds])
  | feedbackStatus status message => exact ⟨⟨rfl, hgone⟩, rfl⟩
  | feedbackSettle status =>
    refine ⟨⟨rfl, ?_⟩, rfl⟩
    show (s.messageQueue.settle msgId status).pendingMessages.lookup msgId = none
    rw [MessageQueue.lookup_settle]
    split
    · rfl
    · exact hgone
  | done => exact ⟨⟨rfl, hgone⟩, rfl⟩

end QueueTask

/-! ## Schedules -/

/-- The calls that can begin after the message is being queued. -/
inductive Call where
  | retryPass (tick : Nat)
  | routingFeedback (status : MessageStatus) (message : String)

/-- What a call has to do. -/
def Call.task : Call → QueueTask
  | .retryPass tick => .retryRemove tick
  | .routingFeedback status message => .feedbackStatus status message

/-- One event of a schedule: a call begins, or a call does its next operation. -/
inductive ScheduleEvent where
  | starts (call : Call)
  | steps (i : Nat) (env : StepEnv)

/-- The statuses with which a message has arrived. -/
def arrivedStatus (status : MessageStatus) : Bool :=
  status == .delivered || status == .waitingForClientAck

/-- A schedule: the calls, whether `handle_routing_feedback` has completed for one of
these statuses, and how often the message was sent since. -/
structure Schedule where
  pool : Pool QueueTask QueueShared
  arrived : Bool
  sentSince : Nat

namespace Schedule

/-- The message is about to be queued. -/
def start (shared : QueueShared) (queued : QueuedMessage) : Schedule :=
  { pool := { tasks := [.queueSend queued], shared }, arrived := false, sentSince := 0 }

/-- Whether the next operation of a call completes the feedback that the message has
arrived. -/
def completesArrival : Option QueueTask → Bool
  | some (.feedbackSettle status) => arrivedStatus status
  | _ => false

/-- One event. -/
def step (config : MessageQueueConfig) (msgId : UInt64) (s : Schedule) :
    ScheduleEvent → Schedule
  | .starts call => { s with pool := s.pool.spawn call.task }
  | .steps i env =>
    let pool := s.pool.advance (QueueTask.step config msgId env) i
    { pool
      arrived := s.arrived || completesArrival s.pool.tasks[i]?
      sentSince :=
        if s.arrived then
          s.sentSince + (pool.shared.outbound.length - s.pool.shared.outbound.length)
        else 0 }

/-- A message that has arrived is taken out only while no call holds it. -/
def TakenWhenFree (config : MessageQueueConfig) (s : Schedule) : ScheduleEvent → Prop
  | .starts _ => True
  | .steps i _ => completesArrival s.pool.tasks[i]? = true →
      ∀ t ∈ s.pool.tasks, t.holds config = false

instance (config : MessageQueueConfig) (s : Schedule) (e : ScheduleEvent) :
    Decidable (s.TakenWhenFree config e) :=
  match e with
  | .starts _ => isTrue trivial
  | .steps i _ => inferInstanceAs (Decidable (completesArrival s.pool.tasks[i]? = true →
      ∀ t ∈ s.pool.tasks, t.holds config = false))

/-- After the message has arrived: it is not pending, no call will make it so, and it
was not sent. -/
structure Gone (config : MessageQueueConfig) (msgId : UInt64) (s : Schedule) : Prop where
  free : s.pool.Inv (fun t => t.holds config = false)
    fun shared => shared.messageQueue.pendingMessages.lookup msgId = none
  unsent : s.sentSince = 0

/-- **One event** after the message has arrived. -/
theorem Gone.step {config : MessageQueueConfig} {msgId : UInt64} {s : Schedule}
    (h : s.Gone config msgId) (e : ScheduleEvent) : (s.step config msgId e).Gone config msgId := by
  cases e with
  | starts call =>
    refine ⟨h.free.spawn ?_, h.unsent⟩
    cases call <;> rfl
  | steps i env =>
    refine ⟨h.free.advance (fun t shared hfree hgone =>
      (QueueTask.free_step config msgId env t shared hfree hgone).1) i, ?_⟩
    have hunsent : (s.pool.advance (QueueTask.step config msgId env) i).shared.outbound
        = s.pool.shared.outbound := by
      unfold Pool.advance
      cases hget : s.pool.tasks[i]? with
      | none => rfl
      | some t =>
        exact (QueueTask.free_step config msgId env t s.pool.shared
          (h.free.tasks t (List.mem_of_getElem? hget)) h.free.shared).2
    show (if s.arrived = true then _ else 0) = 0
    rw [hunsent, h.unsent, Nat.sub_self, ite_self]

/-- **One event** of a schedule that meets the condition. -/
theorem arrived_step {config : MessageQueueConfig} {msgId : UInt64} {s : Schedule}
    {e : ScheduleEvent} (h : s.arrived = true → s.Gone config msgId)
    (he : s.TakenWhenFree config e) :
    (s.step config msgId e).arrived = true → (s.step config msgId e).Gone config msgId := by
  intro harrives
  cases harrived : s.arrived with
  | true => exact (h harrived).step e
  | false =>
    cases e with
    | starts call => exact absurd (harrived.symm.trans harrives) Bool.false_ne_true
    | steps i env =>
      -- the operation is the one that takes the message out
      have hcompletes : completesArrival s.pool.tasks[i]? = true := by
        have hor : (s.arrived || completesArrival s.pool.tasks[i]?) = true := harrives
        rwa [harrived, Bool.false_or] at hor
      have hfree := he hcompletes
      unfold completesArrival at hcompletes
      split at hcompletes
      next status hget =>
        have hsettles : status.settles = true := by
          cases status <;> first | rfl | exact absurd hcompletes (by decide)
        have hpool : (s.pool.advance (QueueTask.step config msgId env) i)
            = { tasks := s.pool.tasks.set i .done
                shared := { s.pool.shared with
                  messageQueue := s.pool.shared.messageQueue.settle msgId status
                  waitingMessages := s.pool.shared.messageQueue.await
                    s.pool.shared.waitingMessages msgId status } } := by
          unfold Pool.advance
          rw [hget]
          rfl
        refine ⟨⟨fun t ht => ?_, ?_⟩, ?_⟩
        · have hmem : t ∈ s.pool.tasks.set i .done := by
            have := ht
            rwa [show (s.step config msgId (.steps i env)).pool = _ from hpool] at this
          rcases List.mem_or_eq_of_mem_set hmem with hold | rfl
          · exact hfree t hold
          · rfl
        · show (s.pool.advance (QueueTask.step config msgId env)
            i).shared.messageQueue.pendingMessages.lookup msgId = none
          rw [hpool]
          show (s.pool.shared.messageQueue.settle msgId status).pendingMessages.lookup msgId = none
          rw [MessageQueue.lookup_settle, if_pos ⟨rfl, hsettles⟩]
        · show (if s.arrived = true then _ else 0) = 0
          rw [if_neg (by rw [harrived]; exact Bool.false_ne_true)]
      next => exact absurd hcompletes Bool.false_ne_true

end Schedule

/-- **A message that has arrived is gone if it is taken out while no call holds it.**
In every schedule of the call that queues a message, any retry passes over it and
any statuses for it, in which a status `Delivered` or `WaitingForClientAck` takes
the message out only while no call holds it: once such a status is completed the
message is not pending, in every later state, and it is not sent again. -/
theorem removed_for_good (config : MessageQueueConfig) (msgId : UInt64) (shared : QueueShared)
    (queued : QueuedMessage) (events : List ScheduleEvent)
    (hevents : Along (Schedule.step config msgId) (Schedule.TakenWhenFree config)
      (.start shared queued) events) :
    let s := events.foldl (Schedule.step config msgId) (.start shared queued)
    s.arrived = true →
      s.pool.shared.messageQueue.pendingMessages.lookup msgId = none ∧ s.sentSince = 0 := by
  intro s harrived
  have hgone : s.arrived = true → s.Gone config msgId :=
    hevents.inv (I := fun s => s.arrived = true → s.Gone config msgId)
      (fun _ _ h he => Schedule.arrived_step h he) (fun h => absurd h Bool.false_ne_true)
  exact ⟨(hgone harrived).free.shared, (hgone harrived).unsent⟩

/-- A message to node 2, as it is queued. -/
def firstQueued : QueuedMessage :=
  { message := { srcNode := 1, dstNode := 2, payload := [7], headers := ∅, corrId := 0
                 msgId := some 1, requireAck := false }
    retryCount := 0, queuedAt := 0, nextRetryAt := 0, sendMode := .fireAndForget
    timeoutSeconds := 0 }

/-- The schedules of its first steps; nothing is pending before. -/
def firstSchedule : Schedule :=
  .start { messageQueue := { pendingMessages := ∅ }, waitingMessages := ∅, messageTracker := ∅
           outbound := [] } firstQueued

/-- The channel is open. -/
def openEnv : StepEnv := { now := 0, isOpen := true }

/-- The status comes after the message was queued, and a retry pass after that. -/
theorem removed_for_good_in_turn :
    let events : List ScheduleEvent := [.steps 0 openEnv, .steps 0 openEnv,
      .starts (.routingFeedback .delivered ""), .steps 1 openEnv, .steps 1 openEnv,
      .starts (.retryPass 0), .steps 2 openEnv]
    let s := events.foldl (Schedule.step .default 1) firstSchedule
    s.arrived = true ∧
      s.pool.shared.messageQueue.pendingMessages.lookup 1 = none ∧ s.sentSince = 0 := by
  intro events s
  have harrived : s.arrived = true := by decide +kernel
  exact ⟨harrived, removed_for_good .default 1 _ firstQueued events (by decide +kernel) harrived⟩

/-- The status is handled between the send and the insertion, or while a retry pass has
the message out. All calls have finished, and the message is pending; in the second
schedule it was sent again. -/
theorem pending_after_arrival :
    (let events : List ScheduleEvent := [.steps 0 openEnv,
      .starts (.routingFeedback .delivered ""), .steps 1 openEnv, .steps 1 openEnv,
      .steps 0 openEnv]
    let s := events.foldl (Schedule.step .default 1) firstSchedule
    s.arrived = true ∧ (s.pool.tasks.all QueueTask.finished) = true ∧
      (s.pool.shared.messageQueue.pendingMessages.lookup 1).isSome = true) ∧
    (let events : List ScheduleEvent := [.steps 0 openEnv, .steps 0 openEnv,
      .starts (.retryPass 0), .steps 1 openEnv,
      .starts (.routingFeedback .waitingForClientAck ""), .steps 2 openEnv, .steps 2 openEnv,
      .steps 1 openEnv, .steps 1 openEnv, .steps 1 openEnv]
    let s := events.foldl (Schedule.step .default 1) firstSchedule
    s.arrived = true ∧ (s.pool.tasks.all QueueTask.finished) = true ∧ s.sentSince = 1 ∧
      (s.pool.shared.messageQueue.pendingMessages.lookup 1).isSome = true) := by
  decide +kernel

end MeshCore.Grpc
