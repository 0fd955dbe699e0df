import MeshCore.Grpc.Waiting

/-!
# What a rejected send leaves

A call that fails should leave no pending message and no open record. `send` updates the
record to `Undeliverable` when it cannot queue the message; it does not when it then finds
that the request waits for an acknowledgment without asking for one, and neither does
`send_with_status_stream` at all (`rejected_leaves_nothing_iff`). Such a record stays
`Queued`.

A call that waits fails if the message has no record at the end, which is so only after the
cleanup task removed it. The message may still be pending then, unless the records it
removes are those of messages that are settled (`Untracked.step`).
-/

namespace MeshCore.Grpc

open MeshCore.Lib MeshCore.Wire MeshCore.Session DataNode

/-- The call left no pending message, and if it gave out an ID, then the record under that
is completed. It touched no other record. -/
structure NothingLeft (before after : MeshDataService) : Prop where
  pending : after.messageQueue.pendingMessages = before.messageQueue.pendingMessages
  completed : after.nextId ≠ before.nextId → ∀ record,
    after.messageTracker.lookup before.nextId = some record → record.isCompleted = true
  others : ∀ msgId, msgId ≠ before.nextId →
    after.messageTracker.lookup msgId = before.messageTracker.lookup msgId

/-- After a wait: of the message the call sent nothing is pending, and its record is
completed if there is one. -/
structure NothingLeftOf (msgId : UInt64) (before after : DataNode) : Prop where
  pending : after.pendingMessages.lookup msgId = before.pendingMessages.lookup msgId
  completed : ∀ record, after.messageTracker.lookup msgId = some record →
    record.isCompleted = true

/-! ## Failing at once -/

/-- A message that stays tracked as queued is left behind. -/
theorem not_nothingLeft_queued (svc : MeshDataService) (req : SendRequest) (text : String)
    (now : Nat) : ¬ NothingLeft svc (svc.tracked req .queued text now) := by
  intro h
  have hcompleted := h.completed (by simp [MeshDataService.tracked])
    (.new svc.nextId .queued text req.requireAck now) (AList.lookup_insert _)
  exact absurd (show false = true from hcompleted) (by decide)

/-- One whose record is updated to `Undeliverable` is not. -/
theorem nothingLeft_undeliverable (svc : MeshDataService) (req : SendRequest)
    (text text' : String) (now : Nat) :
    NothingLeft svc { svc.tracked req .queued text now with
      messageTracker := (svc.tracked req .queued text now).messageTracker.updateStatus
        svc.nextId .undeliverable text' now } where
  pending := rfl
  completed := by
    intro _ record hrecord
    replace hrecord := (MessageTracker.lookup_updateStatus ..).symm.trans hrecord
    rw [if_pos rfl, show (svc.tracked req .queued text now).messageTracker.lookup svc.nextId
      = some (.new svc.nextId .queued text req.requireAck now) from AList.lookup_insert _]
      at hrecord
    rw [← Option.some.inj hrecord]
    rfl
  others := by
    intro msgId hne
    refine (MessageTracker.lookup_updateStatus ..).trans ?_
    rw [if_neg hne]
    exact AList.lookup_insert_ne hne

theorem nothingLeft_refl (svc : MeshDataService) : NothingLeft svc svc :=
  ⟨rfl, fun h => absurd rfl h, fun _ _ => rfl⟩

/-- **What `send` leaves when it fails at once.** -/
theorem nothingLeft_send_iff {svc : MeshDataService} {req : SendRequest} {now : Nat}
    {isOpen : Bool} {status : Status}
    (h : (svc.send req now isOpen).outcome = .error status) :
    NothingLeft svc (svc.send req now isOpen).service ↔ req.Invalid ∨ ¬ req.Unackable := by
  rcases svc.send_outcomes req now isOpen with ⟨hinvalid, text, hsend⟩ | ⟨text, hsend⟩ |
    ⟨hvalid, hack, text, hsend⟩ | ⟨-, hack, text, hsend⟩ | ⟨queued, -, hsend⟩
  · rw [hsend]
    exact iff_of_true (nothingLeft_refl svc) (.inl hinvalid)
  · rw [hsend] at h
    exact absurd h (by simp)
  · rw [hsend]
    refine iff_of_false (not_nothingLeft_queued svc req _ now) ?_
    exact fun hor => hor.elim hvalid fun hno => hno hack
  · rw [hsend]
    exact iff_of_true (nothingLeft_undeliverable ..) (.inr hack)
  · rw [hsend] at h
    exact absurd h (by simp)

/-- **What `send_with_status_stream` leaves when it fails.** -/
theorem nothingLeft_stream_iff {svc : MeshDataService} {req : SendRequest} {now : Nat}
    {isOpen : Bool} {status : Status}
    (h : (svc.sendWithStatusStream req now isOpen).outcome = .error status) :
    NothingLeft svc (svc.sendWithStatusStream req now isOpen).service ↔ req.Invalid := by
  rw [sendWithStatusStream_error h]
  split
  next hinvalid => exact iff_of_true (nothingLeft_refl svc) hinvalid
  next hvalid => exact iff_of_false (not_nothingLeft_queued svc req _ now) hvalid

/-! ## Failing after a wait -/

/-- A message without a record is not pending, and not taken out to be sent again. -/
def Untracked (msgId : UInt64) (n : DataNode) : Prop :=
  n.messageTracker.lookup msgId = none →
    n.pendingMessages.lookup msgId = none ∧
      ∀ queued, n.retryPass.inHand ≠ some (msgId, queued)

/-- If the cleanup task removes the record of the message, then it is not pending, and not
taken out to be sent again. -/
def CleansSettled (msgId : UInt64) (n : DataNode) : NodeEvent → Prop
  | .status (.cleanup now) => ∀ record, n.messageTracker.lookup msgId = some record →
      record.shouldCleanup now = true → n.pendingMessages.lookup msgId = none ∧
        ∀ queued, n.retryPass.inHand ≠ some (msgId, queued)
  | _ => True

/-- Only the cleanup task removes records. -/
theorem tracked_statusStep {toVec : DeliveryStatusMessage → Option Bytes}
    {fromSlice : Bytes → Option DeliveryStatusMessage} {msgId : UInt64} {n : DataNode}
    {event : StatusEvent} (hevent : ∀ now, event ≠ .cleanup now)
    (h : (n.statusStep toVec fromSlice event).node.messageTracker.lookup msgId = none) :
    n.messageTracker.lookup msgId = none :=
  (overwritten_statusStep toVec fromSlice msgId n hevent).eq_none_iff.mp h

/-- A step that thins the node out and removes no record. -/
theorem Untracked.thin {msgId : UInt64} {n n' : DataNode} (h : Untracked msgId n)
    (hthin : Thinned n n')
    (htracked : n'.messageTracker.lookup msgId = none → n.messageTracker.lookup msgId = none) :
    Untracked msgId n' := by
  intro hnone
  obtain ⟨hpending, hinHand⟩ := h (htracked hnone)
  refine ⟨?_, fun queued hqueued => hinHand queued (hthin.inHand _ hqueued)⟩
  rw [Option.eq_none_iff_forall_ne_some] at hpending ⊢
  exact fun queued hqueued => hpending queued (hthin.pending msgId queued hqueued)

/-- The retry processor takes out only what is pending. -/
theorem Untracked.retryTake {msgId : UInt64} {n : DataNode} (h : Untracked msgId n)
    (now : Nat)
    (htracked : (n.retryTake now).messageTracker.lookup msgId = none →
      n.messageTracker.lookup msgId = none) : Untracked msgId (n.retryTake now) := by
  intro hnone
  obtain ⟨hpending, hinHand⟩ := h (htracked hnone)
  rcases retryTake_cases n now with ⟨hservice, hsame, -⟩ |
    ⟨msgId', _, _, _, _, -, -, hqueued, herase, -, htaken⟩
  · refine ⟨?_, fun queued hqueued => hinHand queued (hsame _ hqueued)⟩
    unfold pendingMessages
    rw [hservice]
    exact hpending
  · have hne : msgId ≠ msgId' := by
      intro heq
      subst heq
      exact absurd (hpending.symm.trans hqueued) (by simp)
    refine ⟨?_, fun queued hqueued => ?_⟩
    · rw [herase, MessageQueue.lookup_erase, if_neg hne]
      exact hpending
    · rcases htaken with hno | ⟨-, queued', hsome, -⟩
      · exact absurd (hno.symm.trans hqueued) (by simp)
      · exact hne (Prod.mk.inj (Option.some.inj (hqueued.symm.trans hsome))).1

/-- It makes pending again only what it has taken out. -/
theorem Untracked.retrySend {msgId : UInt64} {n : DataNode} (h : Untracked msgId n)
    (now : Nat) (isOpen : Bool)
    (htracked : (n.retrySend now isOpen).1.messageTracker.lookup msgId = none →
      n.messageTracker.lookup msgId = none) : Untracked msgId (n.retrySend now isOpen).1 := by
  intro hnone
  obtain ⟨hpending, hinHand⟩ := h (htracked hnone)
  rcases retrySend_cases n now isOpen with ⟨-, hsame⟩ | ⟨msgId', queued', htaken, hempty, hrest⟩
  · rw [hsame]
    exact ⟨hpending, hinHand⟩
  · have hne : msgId ≠ msgId' := by
      intro heq
      subst heq
      exact hinHand queued' htaken
    refine ⟨?_, fun queued hqueued => absurd (hempty.symm.trans hqueued) (by simp)⟩
    rcases hrest with ⟨hinsert, -, -⟩ | ⟨hkept, -, -⟩
    · rw [hinsert, HashMap.lookup_insert_ite, if_neg hne]
      exact hpending
    · rw [hkept]
      exact hpending

/-- The cleanup task removes records of settled messages. -/
theorem Untracked.cleanup {msgId : UInt64} {n : DataNode} {now : Nat} (h : Untracked msgId n)
    (hclean : CleansSettled msgId n (.status (.cleanup now))) :
    Untracked msgId (n.withQueue n.service.messageQueue (n.messageTracker.cleanup now)) := by
  intro hnone
  replace hnone : (n.messageTracker.cleanup now).lookup msgId = none := hnone
  rw [MessageTracker.lookup_cleanup] at hnone
  cases hrecord : n.messageTracker.lookup msgId with
  | none => exact h hrecord
  | some record =>
    rw [hrecord] at hnone
    refine hclean record hrecord ?_
    cases hshould : record.shouldCleanup now with
    | true => rfl
    | false => exact absurd hnone (by simp [Option.filter, hshould])

/-- A call of `send` tracks what it makes pending. -/
theorem Untracked.send {msgId : UInt64} {n : DataNode} (h : Untracked msgId n)
    (req : SendRequest) (now : Nat) (isOpen : Bool) :
    Untracked msgId { n with service := (n.service.send req now isOpen).service } := by
  rcases send_cases n.service req now isOpen with ⟨hservice, -⟩ | ⟨-, record, htracked, hqueue⟩
  · rw [hservice]
    exact h
  · intro hnone
    replace hnone := (htracked msgId).symm.trans hnone
    split at hnone
    next => exact absurd hnone (by simp)
    next hne =>
      obtain ⟨hpending, hinHand⟩ := h hnone
      refine ⟨?_, hinHand⟩
      show (n.service.send req now isOpen).service.messageQueue.pendingMessages.lookup msgId = none
      rcases hqueue with ⟨hkept, -⟩ | ⟨-, queued, hinsert, -, -⟩
      · rw [hkept]
        exact hpending
      · rw [hinsert, HashMap.lookup_insert_ite, if_neg hne]
        exact hpending

/-- **One event.** -/
theorem Untracked.step (toVec : DeliveryStatusMessage → Option Bytes)
    (fromSlice : Bytes → Option DeliveryStatusMessage) {msgId : UInt64} {n : DataNode}
    (h : Untracked msgId n) {event : NodeEvent} (hclean : CleansSettled msgId n event) :
    Untracked msgId (n.step toVec fromSlice event).node := by
  have hthin : ∀ event : StatusEvent, event.isRetry = false → (∀ now, event ≠ .cleanup now) →
      Untracked msgId (n.statusStep toVec fromSlice event).node := fun event hretry hevent =>
    h.thin (thinned_statusStep toVec fromSlice n event hretry).1 (tracked_statusStep hevent)
  cases event with
  | status event =>
    cases event with
    | incoming message now => exact hthin _ rfl (by simp)
    | routingFeedback feedback now => exact hthin _ rfl (by simp)
    | ackMessage ack now => exact hthin _ rfl (by simp)
    | retryTick now => exact hthin _ rfl (by simp)
    | retryTake now =>
      exact h.retryTake now (@tracked_statusStep toVec fromSlice msgId n (.retryTake now)
        (by simp))
    | retrySend now isOpen =>
      exact h.retrySend now isOpen (@tracked_statusStep toVec fromSlice msgId n
        (.retrySend now isOpen) (by simp))
    | cleanup now => exact h.cleanup hclean
  | send req now isOpen => exact h.send req now isOpen
  | subscribe req => exact h
  | unsubscribe subId => exact h
  | dropReceiver subId => exact h

/-- `send` waits for the message whose ID it gave out. -/
theorem outcome_waits {req : SendRequest} {msgId msgId' : UInt64}
    {targetStatuses : List MessageStatus} {timeoutSecs : Nat}
    (h : req.outcome msgId = .waits msgId' targetStatuses timeoutSecs) : msgId' = msgId := by
  unfold SendRequest.outcome at h
  split at h
  · exact absurd h (by simp)
  · exact (SendOutcome.waits.inj h).1.symm
  · exact (SendOutcome.waits.inj h).1.symm

/-- A call that waits has tracked, queued and sent its message, and waits as its mode says. -/
theorem send_of_waits {svc : MeshDataService} {req : SendRequest} {now : Nat} {isOpen : Bool}
    {msgId : UInt64} {targetStatuses : List MessageStatus} {timeoutSecs : Nat}
    (h : (svc.send req now isOpen).outcome = .ok (.waits msgId targetStatuses timeoutSecs)) :
    req.outcome svc.nextId = .waits msgId targetStatuses timeoutSecs ∧
    ∃ queued : QueuedMessage, (svc.send req now isOpen).service
      = { svc.tracked req .queued "Message queued for delivery" now with
          messageQueue := ⟨svc.messageQueue.pendingMessages.insert svc.nextId queued⟩ } := by
  rcases svc.send_outcomes req now isOpen with ⟨-, text, hsend⟩ | ⟨text, hsend⟩ |
    ⟨-, -, text, hsend⟩ | ⟨-, -, text, hsend⟩ | ⟨queued, -, hsend⟩
  · rw [hsend] at h
    exact absurd h (by simp)
  · rw [hsend] at h
    exact absurd h (by simp)
  · rw [hsend] at h
    exact absurd h (by simp)
  · rw [hsend] at h
    exact absurd h (by simp)
  · rw [hsend] at h ⊢
    exact ⟨Except.ok.inj h, queued, rfl⟩

/-- A call that waits has tracked the message it waits for. -/
theorem send_waits {svc : MeshDataService} {req : SendRequest} {now : Nat} {isOpen : Bool}
    {msgId : UInt64} {targetStatuses : List MessageStatus} {timeoutSecs : Nat}
    (h : (svc.send req now isOpen).outcome = .ok (.waits msgId targetStatuses timeoutSecs)) :
    msgId = svc.nextId ∧
      (svc.send req now isOpen).service.messageTracker.lookup svc.nextId ≠ none := by
  obtain ⟨houtcome, queued, hservice⟩ := send_of_waits h
  refine ⟨outcome_waits houtcome, fun hnone => ?_⟩
  rw [hservice] at hnone
  exact absurd ((AList.lookup_insert _).symm.trans hnone) (by simp)

/-- **What is left when a wait ends without a record**: nothing, if the cleanup task removed
records of settled messages only. -/
theorem nothingLeftOf_deadline {toVec : DeliveryStatusMessage → Option Bytes}
    {fromSlice : Bytes → Option DeliveryStatusMessage} {n n' : DataNode} {req : SendRequest}
    {now : Nat} {isOpen : Bool} {rounds : List Round} {text : String}
    (h : n.sendAndWait toVec fromSlice req now isOpen rounds
      = some (n', .error (.deadlineExceeded text)))
    (hfresh : n.pendingMessages.lookup n.service.nextId = none)
    (hrun : Along (fun n event => (n.step toVec fromSlice event).node)
      (CleansSettled n.service.nextId)
      { n with service := (n.service.send req now isOpen).service } (eventsOf rounds)) :
    NothingLeftOf n.service.nextId n n' := by
  rcases sendAndWait_error h with ⟨_, -, he, -⟩ |
    ⟨events, msgId, targetStatuses, timeoutSecs, hwaits, -, ⟨rest, hrest⟩, rfl, hrecord⟩
  · exact absurd he (by simp)
  obtain ⟨rfl, htracked⟩ := send_waits hwaits
  -- the message is tracked when the wait begins
  have hstart : Untracked n.service.nextId
      { n with service := (n.service.send req now isOpen).service } :=
    fun hnone => absurd hnone htracked
  rw [← hrest] at hrun
  obtain ⟨hpending, -⟩ := (along_append.mp hrun).1.inv
    (fun n event h hclean => h.step toVec fromSlice hclean) hstart hrecord
  refine ⟨hpending.trans hfresh.symm, fun record hsome => ?_⟩
  exact absurd (hrecord.symm.trans hsome) (by simp)

/-! ## All ways to fail -/

/-- **What a rejected send leaves behind.** A call of `send` that fails at once leaves
nothing exactly if it does not wait for an acknowledgment that it does not ask for. A call
of `send_with_status_stream` that fails leaves nothing exactly if the request is invalid.
And a call of `send` that fails after its wait leaves nothing if its ID was not pending
before, and the cleanup task removed records of settled messages only. -/
theorem rejected_leaves_nothing_iff (toVec : DeliveryStatusMessage → Option Bytes)
    (fromSlice : Bytes → Option DeliveryStatusMessage) (n : DataNode) (req : SendRequest)
    (now : Nat) (isOpen : Bool) :
    (∀ rounds n' status, n.sendAndWait toVec fromSlice req now isOpen rounds
        = some (n', .error (.rejected status)) →
      (NothingLeft n.service n'.service ↔ req.Invalid ∨ ¬ req.Unackable)) ∧
    (∀ status, (n.service.sendWithStatusStream req now isOpen).outcome = .error status →
      (NothingLeft n.service (n.service.sendWithStatusStream req now isOpen).service ↔
        req.Invalid)) ∧
    ∀ rounds n' text, n.sendAndWait toVec fromSlice req now isOpen rounds
        = some (n', .error (.deadlineExceeded text)) →
      n.pendingMessages.lookup n.service.nextId = none →
      Along (fun n event => (n.step toVec fromSlice event).node)
        (CleansSettled n.service.nextId)
        { n with service := (n.service.send req now isOpen).service } (eventsOf rounds) →
      NothingLeftOf n.service.nextId n n' := by
  refine ⟨?_, fun status h => nothingLeft_stream_iff h,
    fun rounds n' text h hfresh hrun => nothingLeftOf_deadline h hfresh hrun⟩
  intro rounds n' status h
  rcases sendAndWait_error h with ⟨status', hstatus, -, rfl⟩ | ⟨_, _, _, _, -, he, -⟩
  · exact nothingLeft_send_iff hstatus
  · exact absurd he (by simp)

/-- A request to wait until a message to node 2 is delivered, with an acknowledgment. -/
def patientRequest : SendRequest :=
  { requestWith [] 0 with dstNode := 2, requireAck := true, mode := .waitForDelivery
                          timeoutSeconds := 302 }

/-- The report that the message was handed over and is to be acknowledged. -/
def handedReport : DeliveryStatusMessage :=
  { originalMsgId := 1, status := MessageStatus.waitingForClientAck.code, statusMessage := "" }

/-- The message is handed over, and so no longer pending, and acknowledged; then its record
is removed. -/
def settledRounds : List Round :=
  [⟨0, [.status (.incoming (arrived handedReport) 1),
    .status (.ackMessage firstAck (290 * nanosPerSec)),
    .status (.cleanup (302 * nanosPerSec))]⟩,
   ⟨302 * nanosPerSec, []⟩]

theorem rejected_leaves_nothing_iff_settled :
    NothingLeft newService (newService.send (requestWith [] 0) 0 false).service ∧
    NothingLeft newService
      (newService.sendWithStatusStream { requestWith [] 0 with dstNode := 0 } 0 false).service ∧
    ∃ n', freshNode.sendAndWait jsonStatus (fun _ => some handedReport) patientRequest 0 true
        settledRounds = some (n', .error (.deadlineExceeded "Timeout waiting for message delivery"))
      ∧ NothingLeftOf 1 freshNode n' := by
  refine ⟨?_, ?_, _, rfl, ?_⟩
  · exact ((rejected_leaves_nothing_iff jsonStatus readFirst freshNode (requestWith [] 0) 0
      false).1 [] _ _ rfl).mpr (.inr (by decide))
  · exact ((rejected_leaves_nothing_iff jsonStatus readFirst freshNode
      { requestWith [] 0 with dstNode := 0 } 0 false).2.1 _ rfl).mpr (.inl rfl)
  · refine (rejected_leaves_nothing_iff jsonStatus (fun _ => some handedReport) freshNode
      patientRequest 0 true).2.2 settledRounds _ _ rfl rfl ?_
    refine ⟨trivial, trivial, fun record _ _ => ⟨by decide +kernel, fun queued h => ?_⟩, trivial⟩
    have hempty : (none : Option (UInt64 × QueuedMessage)) = some (1, queued) := h
    exact absurd hempty (by simp)

/-- A request to wait for an acknowledgment that it does not ask for. -/
def unackableRequest : SendRequest := { requestWith [] 0 with mode := .waitForAck }

/-- A node that sends again after an hour. -/
def patientNode : DataNode :=
  { freshNode with
    config := { maxRetryAttempts := 10, baseRetryInterval := 3600 * nanosPerSec
                maxRetryInterval := 3600 * nanosPerSec } }

/-- A message to the own node is acknowledged, and its record removed, while it is still
pending. -/
def pendingRounds : List Round :=
  [⟨0, [.status (.retryTick 0), .status (.retryTake 0), .status (.retrySend 0 true),
    .status (.ackMessage firstAck (290 * nanosPerSec)),
    .status (.cleanup (302 * nanosPerSec))]⟩,
   ⟨302 * nanosPerSec, []⟩]

/-- Three calls that fail and leave a message behind. -/
theorem rejected_leaves_message :
    (∃ n' status, freshNode.sendAndWait jsonStatus readFirst unackableRequest 0 true []
        = some (n', .error (.rejected status)) ∧ ¬ NothingLeft freshNode.service n'.service) ∧
    (∃ status, (newService.sendWithStatusStream (requestWith [] 0) 0 false).outcome
        = .error status ∧
      ¬ NothingLeft newService
        (newService.sendWithStatusStream (requestWith [] 0) 0 false).service) ∧
    ∃ n' text, patientNode.sendAndWait jsonStatus readFirst
        { patientRequest with dstNode := 1 } 0 true pendingRounds
          = some (n', .error (.deadlineExceeded text)) ∧
      ¬ NothingLeftOf 1 patientNode n' := by
  refine ⟨⟨_, _, rfl, not_nothingLeft_queued newService unackableRequest _ 0⟩,
    ⟨_, rfl, not_nothingLeft_queued newService (requestWith [] 0) _ 0⟩, ⟨_, _, rfl, ?_⟩⟩
  intro h
  exact absurd (congrArg Option.isSome h.pending) (by decide +kernel)

end MeshCore.Grpc
