import MeshCore.Grpc.Admission
import MeshCore.Grpc.Effects

/-!
# Sends that wait, and sends with a stream (`mesh-grpc/src/data.rs`)

In the modes `WaitForDelivery` and `WaitForAck` a call of `send` goes on after the message
is queued: `wait_for_status` looks at the record of the message every 100 ms, until it has
one of the statuses waited for or the time is up. Other tasks work at the node meanwhile.
`send_with_status_stream` does not wait; it checks less than `send`, and gives back a
stream that begins with a status.

Mirroring notes:
- A round of the loop has the time that passed until its check, and the events between its
  look at the record and the next one, which after the last round is that of `send`.
- The receiver of a new stream is there, so that the first status can be sent. What the
  queue sends into the stream later is in `Streams.lean`.
-/

namespace MeshCore.Grpc

open MeshCore.Lib MeshCore.Wire MeshCore.Session DataNode

/-- `MessageStatusInfo`. -/
structure MessageStatusInfo where
  msgId : UInt64
  status : MessageStatus
  statusMessage : String
  timestamp : Nat
  requireAck : Bool
  deriving Repr, DecidableEq

/-- `From<&MessageRecord> for MessageStatusInfo`. -/
def MessageStatusInfo.ofRecord (record : MessageRecord) : MessageStatusInfo :=
  { msgId := record.msgId, status := record.status, statusMessage := record.statusMessage
    timestamp := record.timestamp, requireAck := record.requireAck }

/-! ## The wait -/

/-- One round of the loop of `wait_for_status`. -/
structure Round where
  elapsed : Nat
  events : List NodeEvent

/-- What the other tasks do in these rounds. -/
def eventsOf (rounds : List Round) : List NodeEvent := rounds.flatMap Round.events

/-- The `tonic::Status` a call of `send` ends with. -/
inductive SendError where
  | rejected (status : Status)
  | deadlineExceeded (message : String)
  deriving Repr, DecidableEq

/-- The text for a wait that ended without a record. -/
def SendMode.deadlineText : SendMode → String
  | .waitForAck => "Timeout waiting for message acknowledgment"
  | _ => "Timeout waiting for message delivery"

namespace DataNode

variable (toVec : DeliveryStatusMessage → Option Bytes)
  (fromSlice : Bytes → Option DeliveryStatusMessage)

/-- `wait_for_status`, with the node when it returns. It has not returned yet if the rounds
end before. -/
def waitForStatus (msgId : UInt64) (targetStatuses : List MessageStatus) (timeout : Nat) :
    DataNode → List Round → Option (DataNode × Except String MessageStatusInfo)
  | _, [] => none
  | n, round :: rounds =>
    match (n.messageTracker.lookup msgId).filter fun record =>
      targetStatuses.contains record.status with
    | some record => some (n, .ok (.ofRecord record))
    | none =>
      let n := n.after toVec fromSlice round.events
      if round.elapsed ≥ timeout then some (n, .error "Timeout waiting for message status")
      else waitForStatus msgId targetStatuses timeout n rounds

/-- `send` with its wait, and the node when it returns. -/
def sendAndWait (n : DataNode) (req : SendRequest) (now : Nat) (isOpen : Bool)
    (rounds : List Round) : Option (DataNode × Except SendError SendResponse) :=
  let sent := n.service.send req now isOpen
  let n := { n with service := sent.service }
  match sent.outcome with
  | .error status => some (n, .error (.rejected status))
  | .ok (.responds response) => some (n, .ok response)
  | .ok (.waits msgId targetStatuses timeoutSecs) =>
    match n.waitForStatus toVec fromSlice msgId targetStatuses (timeoutSecs * nanosPerSec)
      rounds with
    | none => none
    | some (n, .ok statusInfo) =>
      some (n, .ok { msgId, status := statusInfo.status
                     statusMessage := statusInfo.statusMessage, requireAck := req.requireAck })
    | some (n, .error _) =>
      match n.messageTracker.lookup msgId with
      | some record =>
        some (n, .ok { msgId, status := record.status
                       statusMessage := "Timeout: " ++ record.statusMessage
                       requireAck := req.requireAck })
      | none => some (n, .error (.deadlineExceeded req.mode.deadlineText))

variable {toVec} {fromSlice}

/-- **A wait ends** when the time is up. -/
theorem waitForStatus_isSome {msgId : UInt64} {targetStatuses : List MessageStatus}
    {timeout : Nat} {rounds : List Round} (h : ∃ round ∈ rounds, timeout ≤ round.elapsed)
    (n : DataNode) :
    (waitForStatus toVec fromSlice msgId targetStatuses timeout n rounds).isSome := by
  induction rounds generalizing n with
  | nil => exact absurd h (by simp)
  | cons round rounds ih =>
    unfold waitForStatus
    split
    next => rfl
    next =>
      dsimp only
      split
      next => rfl
      next helapsed =>
        refine ih ?_ _
        obtain ⟨r, hr, htimeout⟩ := h
        rcases List.mem_cons.mp hr with rfl | hr
        · exact absurd htimeout helapsed
        · exact ⟨r, hr, htimeout⟩

/-- While it waits, the node does what the other tasks do. -/
theorem waitForStatus_node {msgId : UInt64} {targetStatuses : List MessageStatus}
    {timeout : Nat} {rounds : List Round} {n n' : DataNode}
    {result : Except String MessageStatusInfo}
    (h : waitForStatus toVec fromSlice msgId targetStatuses timeout n rounds
      = some (n', result)) :
    ∃ events, events <+: eventsOf rounds ∧ n' = n.after toVec fromSlice events := by
  induction rounds generalizing n with
  | nil => exact absurd h (by simp [waitForStatus])
  | cons round rounds ih =>
    have hevents : eventsOf (round :: rounds) = round.events ++ eventsOf rounds := rfl
    unfold waitForStatus at h
    split at h
    next =>
      obtain ⟨rfl, -⟩ := Prod.mk.inj (Option.some.inj h)
      exact ⟨[], List.nil_prefix, rfl⟩
    next =>
      dsimp only at h
      split at h
      next =>
        obtain ⟨rfl, -⟩ := Prod.mk.inj (Option.some.inj h)
        exact ⟨round.events, List.prefix_append .., rfl⟩
      next =>
        obtain ⟨events, hprefix, rfl⟩ := ih h
        refine ⟨round.events ++ events, ?_, ?_⟩
        · rw [hevents]
          exact (List.prefix_append_right_inj _).mpr hprefix
        · exact List.foldl_append.symm

/-- A wait that has not ended goes on at the node as the other tasks left it. -/
theorem waitForStatus_append {msgId : UInt64} {targetStatuses : List MessageStatus}
    {timeout : Nat} {n : DataNode} {rounds : List Round}
    (h : waitForStatus toVec fromSlice msgId targetStatuses timeout n rounds = none)
    (rest : List Round) :
    waitForStatus toVec fromSlice msgId targetStatuses timeout n (rounds ++ rest)
      = waitForStatus toVec fromSlice msgId targetStatuses timeout
          (n.after toVec fromSlice (eventsOf rounds)) rest := by
  induction rounds generalizing n with
  | nil => rfl
  | cons round rounds ih =>
    have hevents : n.after toVec fromSlice (eventsOf (round :: rounds))
        = (n.after toVec fromSlice round.events).after toVec fromSlice (eventsOf rounds) :=
      List.foldl_append
    rw [waitForStatus] at h
    rw [List.cons_append, waitForStatus, hevents]
    split at h
    next => exact absurd h (by simp)
    next =>
      dsimp only at h ⊢
      split at h
      next => exact absurd h (by simp)
      next helapsed =>
        rw [if_neg helapsed]
        exact ih h

/-- The next look at the record ends the wait, whatever comes after it, exactly if the record
has one of the statuses waited for. -/
theorem waitForStatus_ends_iff {msgId : UInt64} {targetStatuses : List MessageStatus}
    {timeout : Nat} {n : DataNode} :
    (∃ statusInfo, ∀ next rest, waitForStatus toVec fromSlice msgId targetStatuses timeout n
        (next :: rest) = some (n, .ok statusInfo)) ↔
      ∃ record, n.messageTracker.lookup msgId = some record ∧ record.status ∈ targetStatuses := by
  constructor
  · intro h
    obtain ⟨statusInfo, hends⟩ := h
    -- a round after which the time is up
    have hlast := hends ⟨timeout, []⟩ []
    rw [waitForStatus] at hlast
    split at hlast
    next record hrecord =>
      obtain ⟨hlookup, htarget⟩ := Option.filter_eq_some_iff.mp hrecord
      exact ⟨record, hlookup, List.contains_iff_mem.mp htarget⟩
    next =>
      rw [if_pos (Nat.le_refl timeout)] at hlast
      exact absurd (Prod.mk.inj (Option.some.inj hlast)).2 (by simp)
  · intro h
    obtain ⟨record, hlookup, htarget⟩ := h
    refine ⟨.ofRecord record, fun next rest => ?_⟩
    have hrecord : ((n.messageTracker.lookup msgId).filter fun record =>
        targetStatuses.contains record.status) = some record :=
      Option.filter_eq_some_iff.mpr ⟨hlookup, List.contains_iff_mem.mpr htarget⟩
    rw [waitForStatus, hrecord]

/-- **How `send` fails:** at once, or after a wait that leaves no record of the message. -/
theorem sendAndWait_error {n n' : DataNode} {req : SendRequest} {now : Nat} {isOpen : Bool}
    {rounds : List Round} {e : SendError}
    (h : n.sendAndWait toVec fromSlice req now isOpen rounds = some (n', .error e)) :
    (∃ status, (n.service.send req now isOpen).outcome = .error status ∧
        e = .rejected status ∧ n' = { n with service := (n.service.send req now isOpen).service }) ∨
      ∃ events msgId targetStatuses timeoutSecs,
        (n.service.send req now isOpen).outcome
          = .ok (.waits msgId targetStatuses timeoutSecs) ∧
        e = .deadlineExceeded req.mode.deadlineText ∧
        events <+: eventsOf rounds ∧
        n' = DataNode.after toVec fromSlice
          { n with service := (n.service.send req now isOpen).service } events ∧
        n'.messageTracker.lookup msgId = none := by
  unfold sendAndWait at h
  dsimp only at h
  split at h
  next status hstatus =>
    obtain ⟨rfl, he⟩ := Prod.mk.inj (Option.some.inj h)
    exact .inl ⟨status, hstatus, (Except.error.inj he).symm, rfl⟩
  next => exact absurd (Prod.mk.inj (Option.some.inj h)).2 (by simp)
  next msgId targetStatuses timeoutSecs hwaits =>
    split at h
    next => exact absurd h (by simp)
    next => exact absurd (Prod.mk.inj (Option.some.inj h)).2 (by simp)
    next hwait =>
      obtain ⟨events, hprefix, hnode⟩ := waitForStatus_node hwait
      split at h
      next => exact absurd (Prod.mk.inj (Option.some.inj h)).2 (by simp)
      next hrecord =>
        obtain ⟨rfl, he⟩ := Prod.mk.inj (Option.some.inj h)
        exact .inr ⟨events, msgId, targetStatuses, timeoutSecs, hwaits,
          (Except.error.inj he).symm, hprefix, hnode, hrecord⟩

end DataNode

/-! ## The stream -/

/-- What a call of `send_with_status_stream` leaves: the service, the stream so far, and
the messages it put on the outbound channel. -/
structure Streamed where
  service : MeshDataService
  outcome : Except Status (List MessageStatusInfo)
  outbound : List OutboundMessage

/-- `send_with_status_stream`. -/
def MeshDataService.sendWithStatusStream (svc : MeshDataService) (req : SendRequest) (now : Nat)
    (isOpen : Bool) : Streamed :=
  if req.dstNode = 0 then ⟨svc, .error (.invalidArgument "dst_node cannot be 0"), []⟩
  else if req.payload = [] then ⟨svc, .error (.invalidArgument "payload cannot be empty"), []⟩
  else
    let msgId := svc.nextId
    if svc.isNodeKnown req.dstNode = false then
      -- the message is not tracked
      ⟨{ svc with nextId := svc.nextId + 1 },
        .ok [{ msgId, status := .undeliverable
               statusMessage := "Destination node " ++ toString req.dstNode
                 ++ " is not known in the mesh topology"
               timestamp := now / nanosPerSec, requireAck := req.requireAck }], []⟩
    else
      let statusMessage := "Message queued for streaming delivery"
      let svc := { svc with
        nextId := svc.nextId + 1
        messageTracker := svc.messageTracker.trackMessage msgId .queued statusMessage
          req.requireAck now }
      let message := req.outbound svc.nodeId msgId
      match svc.messageQueue.queueMessage message req.mode req.timeoutSeconds now isOpen with
      | .error _ => ⟨svc, .error (.internal "Failed to queue message"), []⟩
      | .ok messageQueue =>
        ⟨{ svc with messageQueue },
          .ok [{ msgId, status := .queued, statusMessage, timestamp := now / nanosPerSec
                 requireAck := req.requireAck }], [message]⟩

/-- **How `send_with_status_stream` fails:** on an invalid request, or when the outbound
channel is closed, and then the message stays tracked as it was. -/
theorem sendWithStatusStream_error {svc : MeshDataService} {req : SendRequest} {now : Nat}
    {isOpen : Bool} {status : Status}
    (h : (svc.sendWithStatusStream req now isOpen).outcome = .error status) :
    (svc.sendWithStatusStream req now isOpen).service
      = if req.Invalid then svc
        else svc.tracked req .queued "Message queued for streaming delivery" now := by
  unfold MeshDataService.sendWithStatusStream at h ⊢
  split at h
  next hdst => rw [if_pos hdst, if_pos (show req.Invalid from .inl hdst)]
  next hdst =>
    split at h
    next hpayload =>
      rw [if_neg hdst, if_pos hpayload, if_pos (show req.Invalid from .inr hpayload)]
    next hpayload =>
      have hvalid : ¬ req.Invalid := fun hinvalid => hinvalid.elim hdst hpayload
      rw [if_neg hdst, if_neg hpayload, if_neg hvalid]
      dsimp only at h ⊢
      split at h
      next => exact absurd h (by simp)
      next hknown =>
        rw [if_neg hknown]
        cases isOpen with
        | true => exact absurd h (by simp [MessageQueue.queueMessage, SendRequest.outbound])
        | false => rfl

/-- **What `send_with_status_stream` can do:** nothing, count up the ID, track the message, or
track it and make it pending and send it. -/
theorem sendWithStatusStream_outcomes (svc : MeshDataService) (req : SendRequest) (now : Nat)
    (isOpen : Bool) :
    ∃ outcome,
      svc.sendWithStatusStream req now isOpen = ⟨svc, outcome, []⟩ ∨
      svc.sendWithStatusStream req now isOpen
        = ⟨{ svc with nextId := svc.nextId + 1 }, outcome, []⟩ ∨
      svc.sendWithStatusStream req now isOpen
        = ⟨svc.tracked req .queued "Message queued for streaming delivery" now, outcome, []⟩ ∨
      ∃ queued : QueuedMessage, queued.message = req.outbound svc.nodeId svc.nextId ∧
        svc.sendWithStatusStream req now isOpen
          = ⟨{ svc.tracked req .queued "Message queued for streaming delivery" now with
                messageQueue := ⟨svc.messageQueue.pendingMessages.insert svc.nextId queued⟩ },
              outcome, [queued.message]⟩ := by
  unfold MeshDataService.sendWithStatusStream
  split
  next => exact ⟨_, .inl rfl⟩
  next =>
    split
    next => exact ⟨_, .inl rfl⟩
    next =>
      dsimp only
      split
      next => exact ⟨_, .inr (.inl rfl)⟩
      next =>
        cases isOpen with
        | false => exact ⟨_, .inr (.inr (.inl rfl))⟩
        | true => exact ⟨_, .inr (.inr (.inr ⟨_, rfl, rfl⟩))⟩

end MeshCore.Grpc
