import MeshCore.Grpc.Rejection
import MeshCore.Wire.Cbor

/-!
# When a wait for delivery ends

A call of `send` in the mode `WaitForDelivery` waits at one node for a status that another
node chooses. There the message is handed to its subscribers, and reported as
`WaitingForClientAck` if it is to be acknowledged, and as `Delivered` if not. The call waits
for `Delivered`, `PendingClient` or `Undeliverable`. So the report ends the wait exactly if
the message arrived without its acknowledgment flag (`waiting_ends_iff`).

The flag is metadata with the name `require_ack`, and a header of the client's with this name
takes its place (`Transported.requireAck`).

Mirroring notes:
- The other events at the node that waits are the `events` of the rounds of its wait.
- The message and the report may be forwarded any number of times on their ways (`arrives`).
-/

namespace MeshCore.Grpc

open MeshCore.Lib MeshCore.Wire MeshCore.Session DataNode

/-! ## What arrives -/

/-- What of a message arrives at its destination. -/
structure Transported (m : OutboundMessage) (i : InboundMessage) : Prop where
  srcNode : i.srcNode = m.srcNode
  dstNode : i.dstNode = m.dstNode
  payload : i.payload = m.payload
  msgId : i.msgId.getD 0 = m.msgId.getD 0
  requireAck : i.requireAck = (m.requireAck && (m.headers.lookup "require_ack").isNone)

theorem transported_hop {crates : Crates} {fromReader : Bytes → Option CborValue}
    (hread : ReadsBack crates fromReader) {m : OutboundMessage} {i : InboundMessage}
    (h : hop crates fromReader m = some i) : Transported m i := by
  obtain ⟨bytes, metaRaw, -, hmeta, rfl⟩ := hop_inv h
  refine ⟨rfl, rfl, rfl, ?_, ?_⟩
  · show (if m.msgId.getD 0 ≠ 0 then some (m.msgId.getD 0) else none).getD 0 = m.msgId.getD 0
    split
    next => rfl
    next hzero => exact (not_not.mp hzero).symm
  · exact readMeta_requireAck (parseMeta_build hread hmeta (metaMap_plain m) (metaMap_sorted m))

theorem transported_arrives {crates : Crates} {fromReader : Bytes → Option CborValue}
    (hread : ReadsBack crates fromReader) {n : Nat} {m : OutboundMessage} {i : InboundMessage}
    (h : arrives crates fromReader n m = some i) : Transported m i := by
  induction n generalizing m with
  | zero => exact transported_hop hread h
  | succ n ih =>
    obtain ⟨i', hhop, hrest⟩ := Option.bind_eq_some_iff.mp h
    have hfirst := transported_hop hread hhop
    have hlast := ih hrest
    refine ⟨hlast.srcNode.trans hfirst.srcNode, hlast.dstNode.trans hfirst.dstNode,
      hlast.payload.trans hfirst.payload, hlast.msgId.trans hfirst.msgId, ?_⟩
    -- after one hop there is no header with the name of the flag
    have hnone : i'.forwarded.headers.lookup "require_ack" = none := hop_headers hread hhop _
    rw [hlast.requireAck, hnone, ← hfirst.requireAck]
    exact Bool.and_true _

/-! ## What is reported -/

/-- The status message for a message that was handed to so many subscribers. -/
def handoverReport (message : Received) (count : Nat) : DeliveryStatusMessage :=
  if message.requireAck then
    { originalMsgId := message.msgId, status := MessageStatus.waitingForClientAck.code
      statusMessage := "Message delivered to " ++ toString count
        ++ " subscribers, waiting for acknowledgment" }
  else
    { originalMsgId := message.msgId, status := MessageStatus.delivered.code
      statusMessage := "Message delivered successfully to " ++ toString count ++ " subscribers" }

theorem outbound_of_handed {n : DataNode} {toVec : DeliveryStatusMessage → Option Bytes}
    {message : Received} (h : (n.handleApplicationMessage toVec message).handed ≠ []) :
    ∃ (node : DataNode) (status : MessageStatus) (statusMessage : String),
      (n.handleApplicationMessage toVec message).outbound
        = node.report toVec message status statusMessage ∧
      handoverReport message (n.handleApplicationMessage toVec message).handed.length
        = { originalMsgId := message.msgId, status := status.code, statusMessage } := by
  unfold handleApplicationMessage at h ⊢
  by_cases hcount : n.deliveryQueue.subscriberCount = 0
  · rw [if_pos hcount] at h
    exact absurd rfl h
  · rw [if_neg hcount] at h ⊢
    dsimp only at h ⊢
    by_cases hpos : (n.deliveryQueue.deliver message).2.length > 0
    · rw [if_pos hpos] at h ⊢
      unfold handoverReport
      cases message.requireAck with
      | true => exact ⟨_, _, _, rfl, rfl⟩
      | false => exact ⟨_, _, _, rfl, rfl⟩
    · rw [if_neg hpos] at h
      exact absurd (List.length_eq_zero_iff.mp (Nat.eq_zero_of_not_pos hpos)) h

/-- **What is reported of a message that was handed over.** -/
theorem report_of_handed {n : DataNode} {toVec : DeliveryStatusMessage → Option Bytes}
    {fromSlice : Bytes → Option DeliveryStatusMessage} {message : Received} {now : Nat}
    {handled : Handled} (hhandled : n.handleIncomingMessage toVec fromSlice message now = handled)
    (h : handled.handed ≠ []) {s : OutboundMessage} (hs : s ∈ handled.outbound) :
    s.dstNode = message.srcNode ∧
      s.payload = (toVec (handoverReport message handled.handed.length)).getD [] ∧
      s.headers.lookup "message_type" = some (asBytes "delivery_status") := by
  unfold handleIncomingMessage at hhandled
  split at hhandled
  next =>
    subst hhandled
    exact absurd rfl h
  next =>
    subst hhandled
    exact absurd rfl h
  next =>
    subst hhandled
    obtain ⟨node, status, statusMessage, houtbound, hreport⟩ := outbound_of_handed h
    rw [hreport]
    rw [houtbound] at hs
    unfold report MeshDataService.deliveryStatusToSource at hs
    split at hs
    · exact absurd hs List.not_mem_nil
    · split at hs
      · exact absurd hs List.not_mem_nil
      · obtain rfl := List.mem_singleton.mp hs
        exact ⟨rfl, rfl, rfl⟩

/-! ## What else happens at the node that waits -/

/-- The event writes no status of the message, does not remove its record, and gives out
another ID. -/
def NotAbout (fromSlice : Bytes → Option DeliveryStatusMessage) (msgId : UInt64) (n : DataNode) :
    NodeEvent → Prop
  | .status event => written fromSlice msgId n event = none ∧ ∀ now, event = .cleanup now →
      ∀ record, n.messageTracker.lookup msgId = some record → record.shouldCleanup now = false
  | .send _ _ _ => n.service.nextId ≠ msgId
  | _ => True

section Events

variable {toVec : DeliveryStatusMessage → Option Bytes}
  {fromSlice : Bytes → Option DeliveryStatusMessage} {msgId : UInt64}

theorem NotAbout.record {n : DataNode} {event : NodeEvent}
    (h : NotAbout fromSlice msgId n event) :
    (n.step toVec fromSlice event).node.messageTracker.lookup msgId
      = n.messageTracker.lookup msgId := by
  cases event with
  | status event =>
    by_cases hcleanup : ∃ now, event = .cleanup now
    · obtain ⟨now, rfl⟩ := hcleanup
      refine (MessageTracker.lookup_cleanup n.messageTracker now msgId).trans ?_
      cases hrecord : n.messageTracker.lookup msgId with
      | none => rfl
      | some record =>
        have hkept := h.2 now rfl record hrecord
        exact Option.filter_eq_some_iff.mpr ⟨rfl, by rw [hkept]; rfl⟩
    · have hover := overwritten_statusStep toVec fromSlice msgId n fun now heq =>
        hcleanup ⟨now, heq⟩
      rw [h.1] at hover
      exact hover
  | send req now isOpen =>
    show (n.service.send req now isOpen).service.messageTracker.lookup msgId = _
    rcases send_cases n.service req now isOpen with ⟨hsame, -⟩ | ⟨-, record, htracked, -⟩
    · rw [hsame]
    · exact (htracked msgId).trans (if_neg (Ne.symm h))
  | subscribe req => rfl
  | unsubscribe subId => rfl
  | dropReceiver subId => rfl

theorem record_of_notAbout {n : DataNode} {events : List NodeEvent}
    (h : Along (fun n event => (n.step toVec fromSlice event).node) (NotAbout fromSlice msgId) n
      events) :
    (n.after toVec fromSlice events).messageTracker.lookup msgId
      = n.messageTracker.lookup msgId := by
  induction events generalizing n with
  | nil => rfl
  | cons event events ih => exact (ih h.2).trans h.1.record

variable (toVec) (fromSlice)

/-- A message that arrives does not change the ID of the node. -/
theorem incoming_nodeId (n : DataNode) (message : Received) (now : Nat) :
    (n.handleIncomingMessage toVec fromSlice message now).node.service.nodeId
      = n.service.nodeId := by
  unfold handleIncomingMessage
  split
  · rfl
  · unfold handleDeliveryStatusMessage
    split
    · rfl
    · split
      · rfl
      · rfl
  · exact congrArg MeshDataService.nodeId (application_service n toVec message)

theorem statusStep_nodeId (n : DataNode) (event : StatusEvent) :
    (n.statusStep toVec fromSlice event).node.service.nodeId = n.service.nodeId := by
  cases event with
  | incoming message now => exact incoming_nodeId toVec fromSlice n message now
  | routingFeedback feedback now => rfl
  | ackMessage ack now => rfl
  | retryTick now =>
    unfold statusStep
    dsimp only
    split
    · rfl
    · rfl
  | retryTake now =>
    show (n.retryTake now).service.nodeId = _
    unfold DataNode.retryTake
    split
    · rfl
    · rfl
  | retrySend now isOpen =>
    show (n.retrySend now isOpen).1.service.nodeId = _
    unfold DataNode.retrySend
    split
    · rfl
    · rfl
  | cleanup now => rfl

theorem send_nodeId (svc : MeshDataService) (req : SendRequest) (now : Nat) (isOpen : Bool) :
    (svc.send req now isOpen).service.nodeId = svc.nodeId := by
  rcases svc.send_outcomes req now isOpen with ⟨-, text, hsend⟩ | ⟨text, hsend⟩ |
    ⟨-, -, text, hsend⟩ | ⟨-, -, text, hsend⟩ | ⟨queued, -, hsend⟩
  · rw [hsend]
  · rw [hsend]
    rfl
  · rw [hsend]
    rfl
  · rw [hsend]
    rfl
  · rw [hsend]
    rfl

/-- No event changes the ID of the node. -/
theorem step_nodeId (n : DataNode) (event : NodeEvent) :
    (n.step toVec fromSlice event).node.service.nodeId = n.service.nodeId := by
  cases event with
  | status event => exact statusStep_nodeId toVec fromSlice n event
  | send req now isOpen => exact send_nodeId n.service req now isOpen
  | subscribe req => rfl
  | unsubscribe subId => rfl
  | dropReceiver subId => rfl

theorem after_nodeId (n : DataNode) (events : List NodeEvent) :
    (n.after toVec fromSlice events).service.nodeId = n.service.nodeId := by
  induction events generalizing n with
  | nil => rfl
  | cons event events ih => exact (ih _).trans (step_nodeId toVec fromSlice n event)

end Events

/-! ## Runs -/

/-- What is assumed of `serde_json` for a status message: the reader undoes the writer. -/
def StatusReadsBack (toVec : DeliveryStatusMessage → Option Bytes)
    (fromSlice : Bytes → Option DeliveryStatusMessage) (d : DeliveryStatusMessage) : Prop :=
  ∃ bytes, toVec d = some bytes ∧ fromSlice bytes = some d

/-- A run in which a message is sent to wait for its delivery, its destination hands it to a
subscriber, and the report of it is processed at the source while `send` still waits. -/
structure DeliveryRun (crates : Crates) (fromReader : Bytes → Option CborValue)
    (toVec : DeliveryStatusMessage → Option Bytes)
    (fromSlice : Bytes → Option DeliveryStatusMessage) where
  /-- The call of `send`. -/
  source : DataNode
  req : SendRequest
  now : Nat
  isOpen : Bool
  targetStatuses : List MessageStatus
  timeoutSecs : Nat
  mode : req.mode = .waitForDelivery
  waits : (source.service.send req now isOpen).outcome
    = .ok (.waits source.service.nextId targetStatuses timeoutSecs)
  /-- The message on its way, and what its destination does with it. -/
  hops : Nat
  message : InboundMessage
  arrival : arrives crates fromReader hops
    (req.outbound source.service.nodeId source.service.nextId) = some message
  dest : DataNode
  destNow : Nat
  handled : Handled
  handling : dest.handleIncomingMessage toVec fromSlice (receivedOf message) destNow = handled
  handed : handled.handed ≠ []
  /-- The report on its way back. -/
  deliveryStatus : OutboundMessage
  reported : deliveryStatus ∈ handled.outbound
  readsBack : StatusReadsBack toVec fromSlice
    (handoverReport (receivedOf message) handled.handed.length)
  backHops : Nat
  report : InboundMessage
  returns : arrives crates fromReader backHops deliveryStatus = some report
  /-- The rounds of the wait until the report is processed, and on to the next look. -/
  rounds : List Round
  waiting : waitForStatus toVec fromSlice source.service.nextId targetStatuses
    (timeoutSecs * nanosPerSec)
    { source with service := (source.service.send req now isOpen).service } rounds = none
  before : List NodeEvent
  processedAt : Nat
  between : List NodeEvent
  events : eventsOf rounds
    = before ++ .status (.incoming (receivedOf report) processedAt) :: between
  undisturbed : Along (fun n event => (n.step toVec fromSlice event).node)
    (NotAbout fromSlice source.service.nextId)
    (DataNode.after toVec fromSlice
      { source with service := (source.service.send req now isOpen).service }
      (before ++ [.status (.incoming (receivedOf report) processedAt)])) between

namespace DeliveryRun

variable {crates : Crates} {fromReader : Bytes → Option CborValue}
  {toVec : DeliveryStatusMessage → Option Bytes}
  {fromSlice : Bytes → Option DeliveryStatusMessage}

/-- The source when the wait begins. -/
def started (r : DeliveryRun crates fromReader toVec fromSlice) : DataNode :=
  { r.source with service := (r.source.service.send r.req r.now r.isOpen).service }

/-- The source when it gets the report. -/
def informed (r : DeliveryRun crates fromReader toVec fromSlice) : DataNode :=
  r.started.after toVec fromSlice r.before

/-- The source when `wait_for_status` looks at the record again. -/
def polled (r : DeliveryRun crates fromReader toVec fromSlice) : DataNode :=
  r.started.after toVec fromSlice (eventsOf r.rounds)

/-- The message still has its record when the report is processed. -/
def Tracked (r : DeliveryRun crates fromReader toVec fromSlice) : Prop :=
  (r.informed.messageTracker.lookup r.source.service.nextId).isSome = true

instance (r : DeliveryRun crates fromReader toVec fromSlice) : Decidable r.Tracked :=
  inferInstanceAs (Decidable (_ = true))

/-- The next look of `wait_for_status` at the record returns `Ok`. -/
def NextPollOk (r : DeliveryRun crates fromReader toVec fromSlice) : Prop :=
  ∃ statusInfo, ∀ next rest, waitForStatus toVec fromSlice r.source.service.nextId
    r.targetStatuses (r.timeoutSecs * nanosPerSec) r.started (r.rounds ++ next :: rest)
      = some (r.polled, .ok statusInfo)

/-- A call that waits does so as its mode says. -/
theorem targetStatuses_eq (r : DeliveryRun crates fromReader toVec fromSlice) :
    r.targetStatuses = [.delivered, .pendingClient, .undeliverable] := by
  obtain ⟨houtcome, -⟩ := send_of_waits r.waits
  unfold SendRequest.outcome at houtcome
  rw [r.mode] at houtcome
  exact (SendOutcome.waits.inj houtcome).2.1.symm

/-- The flag that the destination sees. -/
theorem message_requireAck (hread : ReadsBack crates fromReader)
    (r : DeliveryRun crates fromReader toVec fromSlice) :
    r.message.requireAck = (r.req.requireAck && (r.req.header "require_ack").isNone) := by
  rw [(transported_arrives hread r.arrival).requireAck, outbound_lookup]
  rfl

/-- The source takes the report for a status message. -/
theorem report_incoming (hread : ReadsBack crates fromReader)
    (r : DeliveryRun crates fromReader toVec fromSlice) :
    incoming r.informed.service.nodeId (receivedOf r.report) = .deliveryStatus := by
  obtain ⟨hdst, -, htype⟩ := report_of_handed r.handling r.handed r.reported
  have hinformed : r.informed.service.nodeId = r.source.service.nodeId :=
    (after_nodeId toVec fromSlice r.started r.before).trans
      (send_nodeId r.source.service r.req r.now r.isOpen)
  have hnode : r.report.dstNode = r.informed.service.nodeId := by
    rw [(transported_arrives hread r.returns).dstNode, hdst, hinformed]
    exact (transported_arrives hread r.arrival).srcNode
  rw [← hnode, incoming_eq_deliveryStatus, (arrives_headers hread r.returns).2]
  exact htype

/-- And reads in it what the destination wrote. -/
theorem report_read (hread : ReadsBack crates fromReader)
    (r : DeliveryRun crates fromReader toVec fromSlice) :
    fromSlice r.report.payload
      = some (handoverReport (receivedOf r.message) r.handled.handed.length) := by
  obtain ⟨-, hpayload, -⟩ := report_of_handed r.handling r.handed r.reported
  obtain ⟨bytes, hwrite, hreads⟩ := r.readsBack
  rw [(transported_arrives hread r.returns).payload, hpayload, hwrite]
  exact hreads

/-- **What the report writes** at the source. -/
theorem report_written (hread : ReadsBack crates fromReader)
    (r : DeliveryRun crates fromReader toVec fromSlice) :
    written fromSlice r.source.service.nextId r.informed
        (.incoming (receivedOf r.report) r.processedAt)
      = some (if r.message.requireAck then .waitingForClientAck else .delivered) := by
  have hid : (receivedOf r.message).msgId = r.source.service.nextId :=
    (transported_arrives hread r.arrival).msgId
  unfold written writtenByReport
  dsimp only
  rw [if_pos (report_incoming hread r),
    show fromSlice (receivedOf r.report).payload = _ from report_read hread r, Option.bind_some]
  unfold handoverReport
  rw [show (receivedOf r.message).requireAck = r.message.requireAck from rfl, hid]
  cases r.message.requireAck with
  | true => exact if_pos rfl
  | false => exact if_pos rfl

/-- **The record at the next look**, as the report left it. -/
theorem polled_record (hread : ReadsBack crates fromReader)
    (r : DeliveryRun crates fromReader toVec fromSlice) :
    (r.polled.messageTracker.lookup r.source.service.nextId).map MessageRecord.status
      = (r.informed.messageTracker.lookup r.source.service.nextId).map fun _ =>
          if r.message.requireAck then .waitingForClientAck else .delivered := by
  have hsplit : r.polled = ((r.informed.step toVec fromSlice
      (.status (.incoming (receivedOf r.report) r.processedAt))).node).after toVec fromSlice
        r.between := by
    unfold polled DataNode.after
    rw [r.events, List.foldl_append]
    rfl
  have hbetween : Along (fun n event => (n.step toVec fromSlice event).node)
      (NotAbout fromSlice r.source.service.nextId) (r.informed.step toVec fromSlice
        (.status (.incoming (receivedOf r.report) r.processedAt))).node r.between := by
    have hundisturbed := r.undisturbed
    unfold DataNode.after at hundisturbed
    rw [List.foldl_append] at hundisturbed
    exact hundisturbed
  have hevent : ∀ now, StatusEvent.incoming (receivedOf r.report) r.processedAt ≠ .cleanup now :=
    by simp
  have hover := overwritten_statusStep toVec fromSlice r.source.service.nextId r.informed hevent
  rw [report_written hread r] at hover
  obtain ⟨statusMessage, now, hrecord⟩ := hover
  rw [hsplit, record_of_notAbout hbetween]
  refine (congrArg (Option.map MessageRecord.status) hrecord).trans ?_
  rw [Option.map_map]
  rfl

/-- **When the next look ends the wait**, in terms of what arrived. -/
theorem nextPollOk_iff (hread : ReadsBack crates fromReader)
    (r : DeliveryRun crates fromReader toVec fromSlice) :
    r.NextPollOk ↔ r.Tracked ∧ r.message.requireAck = false := by
  have hrecord := polled_record hread r
  have hends : r.NextPollOk ↔ ∃ statusInfo, ∀ next rest, waitForStatus toVec fromSlice
      r.source.service.nextId r.targetStatuses (r.timeoutSecs * nanosPerSec) r.polled
        (next :: rest) = some (r.polled, .ok statusInfo) := by
    refine exists_congr fun statusInfo => forall_congr' fun next => forall_congr' fun rest => ?_
    rw [show waitForStatus _ _ _ _ _ r.started (r.rounds ++ next :: rest) = _ from
      waitForStatus_append r.waiting (next :: rest)]
    rfl
  rw [hends, waitForStatus_ends_iff, targetStatuses_eq]
  unfold Tracked
  cases hbefore : r.informed.messageTracker.lookup r.source.service.nextId with
  | none =>
    rw [hbefore] at hrecord
    rw [Option.map_eq_none_iff.mp hrecord]
    simp
  | some old =>
    rw [hbefore, Option.map_some] at hrecord
    obtain ⟨record, hlookup, hstatus⟩ := Option.map_eq_some_iff.mp hrecord
    rw [hlookup]
    cases hack : r.message.requireAck with
    | true => simp [hstatus, hack]
    | false => simp [hstatus, hack]

/-- **When a wait for delivery ends.** In every run in which a message is handed over at its
destination and the report of it is processed at the source in time, the next look ends the
wait exactly if the message still had its record then, and is not to be acknowledged: it does
not ask for an acknowledgment, or it has a header with the name of the flag. -/
theorem waiting_ends_iff (hread : ReadsBack crates fromReader)
    (r : DeliveryRun crates fromReader toVec fromSlice) :
    r.NextPollOk ↔
      r.Tracked ∧ ¬ (r.req.requireAck = true ∧ r.req.header "require_ack" = none) := by
  rw [nextPollOk_iff hread, message_requireAck hread, Bool.and_eq_false_iff]
  refine and_congr_right fun _ => ?_
  rw [not_and_or, Bool.not_eq_true, ← Option.isNone_iff_eq_none, Bool.not_eq_true]

/-- A request to wait until a message to node 2 is delivered. -/
def waitRequest (requireAck : Bool) : SendRequest :=
  { requestWith [] 0 with dstNode := 2, requireAck, mode := .waitForDelivery }

/-- What arrives at node 2. -/
def sentMessage (requireAck : Bool) : InboundMessage :=
  (hop .flat readMap ((waitRequest requireAck).outbound 1 1)).get
    (by cases requireAck <;> decide +kernel)

/-- A reader of the reports that node 2 may write. -/
def readHandover (bytes : Bytes) : Option DeliveryStatusMessage :=
  [handoverReport (receivedOf (sentMessage true)) 1,
    handoverReport (receivedOf (sentMessage false)) 1].find? fun d => jsonStatus d == some bytes

/-- What node 2 does with it. -/
def sentHandled (requireAck : Bool) : Handled :=
  subscribedNode.handleIncomingMessage jsonStatus readHandover (receivedOf (sentMessage requireAck))
    0

/-- The report of it. -/
def sentReport (requireAck : Bool) : OutboundMessage :=
  (sentHandled requireAck).outbound.head (by cases requireAck <;> decide +kernel)

/-- What comes back of the report. -/
def returnedReport (requireAck : Bool) : InboundMessage :=
  (hop .flat readMap (sentReport requireAck)).get (by cases requireAck <;> decide +kernel)

theorem flat_readsBack : ReadsBack .flat readMap :=
  fun _ _ _ h => (writeFlat_eq_some (by exact h)).2

/-- A run from node 1 to node 2. -/
def shortRun (requireAck : Bool) : DeliveryRun .flat readMap jsonStatus readHandover where
  source := freshNode
  req := waitRequest requireAck
  now := 0
  isOpen := true
  targetStatuses := [.delivered, .pendingClient, .undeliverable]
  timeoutSecs := 300
  mode := rfl
  waits := rfl
  hops := 0
  message := sentMessage requireAck
  arrival := (Option.some_get _).symm
  dest := subscribedNode
  destNow := 0
  handled := sentHandled requireAck
  handling := rfl
  handed := by cases requireAck <;> decide +kernel
  deliveryStatus := sentReport requireAck
  reported := List.head_mem _
  readsBack := ⟨_, rfl, by cases requireAck <;> decide +kernel⟩
  backHops := 0
  report := returnedReport requireAck
  returns := (Option.some_get _).symm
  rounds := [⟨0, [.status (.incoming (receivedOf (returnedReport requireAck)) 1)]⟩]
  waiting := Option.isNone_iff_eq_none.mp (by cases requireAck <;> decide +kernel)
  before := []
  processedAt := 1
  between := []
  events := rfl
  undisturbed := trivial

/-- Without a request for an acknowledgment the wait ends. -/
theorem waiting_ends_plain : (shortRun false).NextPollOk :=
  (waiting_ends_iff flat_readsBack (shortRun false)).mpr
    ⟨by decide +kernel, fun h => absurd h.1 (by decide)⟩

/-- With one it goes on, although the message was handed over. -/
theorem waiting_goes_on :
    ¬ ∀ r : DeliveryRun .flat readMap jsonStatus readHandover, r.Tracked → r.NextPollOk := by
  intro h
  have hends := h (shortRun true) (by decide +kernel)
  have hflag := ((nextPollOk_iff flat_readsBack (shortRun true)).mp hends).2
  exact absurd hflag (by decide +kernel)

end DeliveryRun

end MeshCore.Grpc
