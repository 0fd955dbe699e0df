import MeshCore.Grpc.Backoff
import MeshCore.Grpc.Schedules

/-!
# Retries are bounded

The number of attempts is kept in the pending entry of a message, which every retry pass
takes out and puts back, and which `notify_node_online` and `notify_client_subscribed`
rewrite to make it due. A run of whole operations keeps it equal to the number of times the
message was sent, less one (`Counted`). So a message is sent `1 + max_retry_attempts` times at
most, and there are three ways for it to leave the pending messages (`Leaves`): a status that
settles it, a send that fails, or the end of its attempts (`retries_bounded`).

Mirroring notes:
- A pass takes the messages due in the order in which the map is visited, which is open
  (`InSomeOrder`). Time and the state of the channel may differ from one to the next.
- With at most 32 attempts and a base interval of an hour no delay overflows, so no pass ends
  in a panic.
-/

namespace MeshCore.Grpc

open MeshCore.Lib MeshCore.Session
open MeshCore.Topology (NodeId)

/-- A whole operation of the queue, for any message. -/
inductive QueueOp where
  | queueMessage (message : OutboundMessage) (sendMode : SendMode) (timeoutSeconds : UInt32)
      (env : StepEnv)
  | retryPass (tick : Nat) (msgIds : List UInt64) (env : UInt64 → StepEnv)
  | routingFeedback (msgId : UInt64) (status : MessageStatus) (message : String) (now : Nat)
  | notifyNodeOnline (nodeId : NodeId) (now : Nat)
  | notifyClientSubscribed (nodeId : NodeId) (now : Nat)

namespace QueueShared

/-- One message of a pass. -/
def retry (config : MessageQueueConfig) (tick : Nat) (env : UInt64 → StepEnv) (s : QueueShared)
    (msgId : UInt64) : QueueShared :=
  let (q, tracker, queued) :=
    s.messageQueue.retryTake s.messageTracker config tick (env msgId).now msgId
  match queued with
  | none => { s with messageQueue := q, messageTracker := tracker }
  | some queued =>
    let (q, tracker, outbound) :=
      q.retrySend tracker (env msgId).now msgId queued (env msgId).isOpen
    { s with messageQueue := q, messageTracker := tracker, outbound := s.outbound ++ outbound }

/-- One operation. -/
def step (config : MessageQueueConfig) (s : QueueShared) : QueueOp → QueueShared
  | .queueMessage message sendMode timeoutSeconds env =>
    match s.messageQueue.queueMessage message sendMode timeoutSeconds env.now env.isOpen with
    | .ok messageQueue => { s with messageQueue, outbound := s.outbound ++ [message] }
    | .error _ => s
  | .retryPass tick msgIds env => msgIds.foldl (retry config tick env) s
  | .routingFeedback msgId status message now =>
    let (messageQueue, waitingMessages, messageTracker) :=
      s.messageQueue.handleRoutingFeedback s.waitingMessages s.messageTracker msgId status message
        now
    { s with messageQueue, waitingMessages, messageTracker }
  | .notifyNodeOnline nodeId now =>
    let (messageQueue, waitingMessages) :=
      s.messageQueue.notifyNodeOnline s.waitingMessages nodeId now
    { s with messageQueue, waitingMessages }
  | .notifyClientSubscribed nodeId now =>
    let (messageQueue, waitingMessages) :=
      s.messageQueue.notifyClientSubscribed s.waitingMessages nodeId now
    { s with messageQueue, waitingMessages }

/-- A new queue, with the tracker it is given. -/
def new (tracker : MessageTracker) : QueueShared :=
  { messageQueue := { pendingMessages := ∅ }, waitingMessages := ∅, messageTracker := tracker
    outbound := [] }

/-- How often a message was put on the outbound channel. -/
def sent (s : QueueShared) (msgId : UInt64) : Nat :=
  s.outbound.countP fun message => message.msgId = some msgId

/-- The pending entry of a message. -/
abbrev pending (s : QueueShared) (msgId : UInt64) : Option QueuedMessage :=
  s.messageQueue.pendingMessages.lookup msgId

end QueueShared

/-- A pass visits the messages that are due, in some order. -/
def InSomeOrder (s : QueueShared) : QueueOp → Prop
  | .retryPass tick msgIds _ => msgIds.Perm (s.messageQueue.due tick)
  | _ => True

instance (s : QueueShared) : (op : QueueOp) → Decidable (InSomeOrder s op)
  | .queueMessage .. => isTrue trivial
  | .retryPass tick msgIds _ => inferInstanceAs (Decidable (msgIds.Perm (s.messageQueue.due tick)))
  | .routingFeedback .. => isTrue trivial
  | .notifyNodeOnline .. => isTrue trivial
  | .notifyClientSubscribed .. => isTrue trivial

/-- How often a run queues a message. -/
def queued (msgId : UInt64) : List QueueOp → Nat
  | [] => 0
  | .queueMessage message _ _ _ :: ops =>
    (if message.msgId = some msgId then 1 else 0) + queued msgId ops
  | _ :: ops => queued msgId ops

/-- The ways out of the pending messages: a status that settles the message, a pass whose
send failed, or a pass that found `max_retry_attempts` attempts made. -/
inductive Leaves (config : MessageQueueConfig) (msgId : UInt64) (s : QueueShared) :
    QueueOp → Prop
  | settled {status : MessageStatus} {message : String} {now : Nat}
      (hsettles : status.settles = true) :
      Leaves config msgId s (.routingFeedback msgId status message now)
  | failed {tick : Nat} {msgIds : List UInt64} {env : UInt64 → StepEnv}
      (hclosed : (env msgId).isOpen = false)
      (hsent : s.sent msgId < 1 + config.maxRetryAttempts.toNat) :
      Leaves config msgId s (.retryPass tick msgIds env)
  | exhausted {tick : Nat} {msgIds : List UInt64} {env : UInt64 → StepEnv}
      (hsent : s.sent msgId = 1 + config.maxRetryAttempts.toNat)
      (hrecord : ∃ record, (s.step config (.retryPass tick msgIds env)).messageTracker.lookup
        msgId = some record ∧ record.status = .undeliverable) :
      Leaves config msgId s (.retryPass tick msgIds env)

/-! ## One message of a pass -/

/-- The pending entries are kept under the IDs of their messages. -/
def Keyed (s : QueueShared) : Prop :=
  ∀ msgId entry, s.pending msgId = some entry → entry.message.msgId = some msgId

/-- What a pass can do with a pending message. -/
inductive Retried (config : MessageQueueConfig) (env : StepEnv) (msgId : UInt64)
    (entry : QueuedMessage) (s s' : QueueShared) : Prop
  | exhausted (hmax : config.maxRetryAttempts < entry.retryCount + 1)
      (hpending : s'.pending msgId = none) (hsent : s'.sent msgId = s.sent msgId)
      (hrecord : (s'.messageTracker.lookup msgId).map MessageRecord.status
        = (s.messageTracker.lookup msgId).map fun _ => .undeliverable)
  | resent (hle : entry.retryCount + 1 ≤ config.maxRetryAttempts) {nextRetryAt : Nat}
      (hpending : s'.pending msgId = some
        { entry with retryCount := entry.retryCount + 1, nextRetryAt })
      (hsent : s'.sent msgId = s.sent msgId + 1)
  | failed (hle : entry.retryCount + 1 ≤ config.maxRetryAttempts) (hclosed : env.isOpen = false)
      (hpending : s'.pending msgId = none) (hsent : s'.sent msgId = s.sent msgId)

/-- Nothing has changed about a message. -/
structure Untouched (msgId : UInt64) (s s' : QueueShared) : Prop where
  pending : s'.pending msgId = s.pending msgId
  sent : s'.sent msgId = s.sent msgId
  record : s'.messageTracker.lookup msgId = s.messageTracker.lookup msgId

theorem Untouched.refl (msgId : UInt64) (s : QueueShared) : Untouched msgId s s := ⟨rfl, rfl, rfl⟩

theorem Untouched.trans {msgId : UInt64} {s s' s'' : QueueShared} (h : Untouched msgId s s')
    (h' : Untouched msgId s' s'') : Untouched msgId s s'' :=
  ⟨h'.pending.trans h.pending, h'.sent.trans h.sent, h'.record.trans h.record⟩

theorem Retried.within {config : MessageQueueConfig} {env : StepEnv} {msgId : UInt64}
    {entry : QueuedMessage} {s s₁ s₂ s' : QueueShared} (h : Retried config env msgId entry s₁ s₂)
    (hbefore : Untouched msgId s s₁) (hafter : Untouched msgId s₂ s') :
    Retried config env msgId entry s s' := by
  cases h with
  | exhausted hmax hpending hsent hrecord =>
    refine .exhausted hmax (hafter.pending.trans hpending)
      (hafter.sent.trans (hsent.trans hbefore.sent)) ?_
    rw [hafter.record, hrecord, hbefore.record]
  | resent hle hpending hsent =>
    refine .resent hle (hafter.pending.trans hpending) ?_
    rw [hafter.sent, hsent, hbefore.sent]
  | failed hle hclosed hpending hsent =>
    exact .failed hle hclosed (hafter.pending.trans hpending)
      (hafter.sent.trans (hsent.trans hbefore.sent))

theorem sent_append (s : QueueShared) (msgId : UInt64) (message : OutboundMessage) :
    ({ s with outbound := s.outbound ++ [message] } : QueueShared).sent msgId
      = s.sent msgId + if message.msgId = some msgId then 1 else 0 := by
  unfold QueueShared.sent
  rw [List.countP_append, List.countP_singleton]
  simp

section Pass

variable (config : MessageQueueConfig) (tick : Nat) (env : UInt64 → StepEnv)

/-- **One message of a pass.** -/
theorem retried {s : QueueShared} (hkeyed : Keyed s) {msgId : UInt64} {entry : QueuedMessage}
    (h : s.pending msgId = some entry) :
    Retried config (env msgId) msgId entry s (s.retry config tick env msgId) := by
  have hid := hkeyed msgId entry h
  unfold QueueShared.retry MessageQueue.retryTake
  rw [show s.messageQueue.pendingMessages.lookup msgId = some entry from h]
  dsimp only
  by_cases hmax : entry.retryCount + 1 > config.maxRetryAttempts
  · rw [if_pos hmax]
    refine .exhausted hmax (AList.lookup_erase ..) rfl ?_
    dsimp only
    rw [MessageTracker.lookup_updateStatus, if_pos rfl, Option.map_map]
    rfl
  · have hle := UInt32.not_lt.mp hmax
    rw [if_neg hmax]
    unfold MessageQueue.retrySend
    cases hopen : (env msgId).isOpen with
    | true =>
      refine .resent hle (AList.lookup_insert _) ?_
      exact (sent_append s msgId entry.message).trans (by rw [if_pos hid])
    | false =>
      refine .failed hle hopen (AList.lookup_erase ..) ?_
      exact congrArg (List.countP _) (List.append_nil s.outbound)

theorem retry_absent {s : QueueShared} {msgId : UInt64} (h : s.pending msgId = none) :
    s.retry config tick env msgId = s := by
  unfold QueueShared.retry MessageQueue.retryTake
  rw [show s.messageQueue.pendingMessages.lookup msgId = none from h]

/-- It is not seen by the other messages. -/
theorem retry_untouched {s : QueueShared} (hkeyed : Keyed s) {msgId other : UInt64}
    (hne : msgId ≠ other) : Untouched msgId s (s.retry config tick env other) := by
  unfold QueueShared.retry MessageQueue.retryTake
  cases h : s.messageQueue.pendingMessages.lookup other with
  | none => exact ⟨rfl, rfl, rfl⟩
  | some entry =>
    have hrecord : ∀ (tracker : MessageTracker) status statusMessage now,
        (tracker.updateStatus other status statusMessage now).lookup msgId
          = tracker.lookup msgId := fun tracker status statusMessage now =>
      (MessageTracker.lookup_updateStatus ..).trans (if_neg hne)
    have herase := AList.lookup_erase_ne (s := s.messageQueue.pendingMessages) hne
    have hid : entry.message.msgId ≠ some msgId := by
      rw [hkeyed other entry h, Option.some_inj.ne]
      exact hne.symm
    dsimp only
    by_cases hmax : entry.retryCount + 1 > config.maxRetryAttempts
    · rw [if_pos hmax]
      exact ⟨herase, rfl, hrecord ..⟩
    · rw [if_neg hmax]
      unfold MessageQueue.retrySend
      cases (env other).isOpen with
      | true =>
        refine ⟨(AList.lookup_insert_ne hne).trans herase, ?_, hrecord ..⟩
        exact (sent_append s msgId entry.message).trans (by rw [if_neg hid]; rfl)
      | false =>
        refine ⟨herase, ?_, (hrecord ..).trans (hrecord ..)⟩
        exact congrArg (List.countP _) (List.append_nil s.outbound)

theorem Keyed.retry {s : QueueShared} (h : Keyed s) (msgId : UInt64) :
    Keyed (s.retry config tick env msgId) := by
  intro other entry hentry
  by_cases hne : other = msgId
  · subst hne
    cases hpending : s.pending other with
    | none =>
      rw [retry_absent config tick env hpending] at hentry
      exact h other entry hentry
    | some old =>
      -- what is put back is the message that was taken out
      have hold := h other old hpending
      cases retried config tick env h hpending with
      | exhausted _ hnone _ _ =>
        rw [hnone] at hentry
        cases hentry
      | resent _ hput _ =>
        rw [hput] at hentry
        obtain rfl := Option.some.inj hentry
        exact hold
      | failed _ _ hnone _ =>
        rw [hnone] at hentry
        cases hentry
  · rw [(retry_untouched config tick env h hne).pending] at hentry
    exact h other entry hentry

/-- A pass does nothing to a message it does not visit. -/
theorem pass_untouched {s : QueueShared} (h : Keyed s) {msgId : UInt64} {msgIds : List UInt64}
    (hout : msgId ∉ msgIds) :
    Untouched msgId s (msgIds.foldl (QueueShared.retry config tick env) s) ∧
      Keyed (msgIds.foldl (QueueShared.retry config tick env) s) := by
  induction msgIds generalizing s with
  | nil => exact ⟨.refl msgId s, h⟩
  | cons other msgIds ih =>
    rw [List.mem_cons, not_or] at hout
    obtain ⟨hrest, hkeyed⟩ := ih (h.retry config tick env other) hout.2
    exact ⟨(retry_untouched config tick env h hout.1).trans hrest, hkeyed⟩

/-- **A pass** treats every message it visits once. -/
theorem pass_retried {s : QueueShared} (h : Keyed s) {msgId : UInt64} {entry : QueuedMessage}
    (hentry : s.pending msgId = some entry) {msgIds : List UInt64} (hnodup : msgIds.Nodup)
    (hin : msgId ∈ msgIds) :
    Retried config (env msgId) msgId entry s
        (msgIds.foldl (QueueShared.retry config tick env) s) ∧
      Keyed (msgIds.foldl (QueueShared.retry config tick env) s) := by
  obtain ⟨before, after, hsplit⟩ := List.append_of_mem hin
  subst hsplit
  obtain ⟨hbefore, -⟩ := List.nodup_cons.mp (List.nodup_middle.mp hnodup)
  rw [List.mem_append, not_or] at hbefore
  obtain ⟨hfirst, hkeyed⟩ := pass_untouched config tick env h hbefore.1
  rw [List.foldl_append, List.foldl_cons]
  have hhere := retried config tick env hkeyed (hfirst.pending.trans hentry)
  obtain ⟨hlast, hkeyed'⟩ := pass_untouched config tick env
    (hkeyed.retry config tick env msgId) hbefore.2
  exact ⟨hhere.within hfirst hlast, hkeyed'⟩

/-- It keeps every record. -/
theorem retry_tracked (s : QueueShared) (msgId other : UInt64) :
    ((s.retry config tick env other).messageTracker.lookup msgId).isSome
      = (s.messageTracker.lookup msgId).isSome := by
  unfold QueueShared.retry MessageQueue.retryTake
  cases s.messageQueue.pendingMessages.lookup other with
  | none => rfl
  | some entry =>
    dsimp only
    by_cases hmax : entry.retryCount + 1 > config.maxRetryAttempts
    · rw [if_pos hmax]
      exact MessageTracker.isSome_updateStatus ..
    · rw [if_neg hmax]
      unfold MessageQueue.retrySend
      cases (env other).isOpen with
      | true => exact MessageTracker.isSome_updateStatus ..
      | false =>
        exact (MessageTracker.isSome_updateStatus ..).trans
          (MessageTracker.isSome_updateStatus ..)

theorem pass_tracked (s : QueueShared) (msgId : UInt64) (msgIds : List UInt64) :
    ((msgIds.foldl (QueueShared.retry config tick env) s).messageTracker.lookup msgId).isSome
      = (s.messageTracker.lookup msgId).isSome := by
  induction msgIds generalizing s with
  | nil => rfl
  | cons other msgIds ih => exact (ih _).trans (retry_tracked config tick env s msgId other)

end Pass

/-! ## One operation -/

/-- What the queue knows of a message before these operations: a pending message was sent
once more than it was retried. -/
structure Counted (config : MessageQueueConfig) (msgId : UInt64) (ops : List QueueOp)
    (s : QueueShared) : Prop where
  keyed : Keyed s
  tracked : (s.messageTracker.lookup msgId).isSome = true
  attempts : ∀ entry, s.pending msgId = some entry →
    s.sent msgId = 1 + entry.retryCount.toNat ∧ entry.retryCount ≤ config.maxRetryAttempts
  bounded : s.sent msgId ≤ 1 + config.maxRetryAttempts.toNat
  once : queued msgId ops = 0 ∨
    queued msgId ops = 1 ∧ s.sent msgId = 0 ∧ s.pending msgId = none

section Step

variable {config : MessageQueueConfig} {msgId : UInt64} {op : QueueOp} {ops : List QueueOp}
  {s s' : QueueShared}

/-- The operation queues no message with this ID, does not send it, and does not change its
number of attempts. -/
theorem Counted.transfer (h : Counted config msgId (op :: ops) s)
    (hqueued : queued msgId (op :: ops) = queued msgId ops) (hkeyed : Keyed s')
    (htracked : (s'.messageTracker.lookup msgId).isSome = (s.messageTracker.lookup msgId).isSome)
    (hsent : s'.sent msgId = s.sent msgId)
    (hpending : ∀ entry, s'.pending msgId = some entry →
      ∃ old, s.pending msgId = some old ∧ old.retryCount = entry.retryCount) :
    Counted config msgId ops s' := by
  refine ⟨hkeyed, htracked.trans h.tracked, fun entry hentry => ?_, hsent ▸ h.bounded, ?_⟩
  · obtain ⟨old, hold, hcount⟩ := hpending entry hentry
    rw [hsent, ← hcount]
    exact h.attempts old hold
  · rw [← hqueued, hsent]
    refine h.once.imp id fun hfresh => ⟨hfresh.1, hfresh.2.1, ?_⟩
    cases hentry : s'.pending msgId with
    | none => rfl
    | some entry =>
      obtain ⟨old, hold, -⟩ := hpending entry hentry
      rw [hfresh.2.2] at hold
      cases hold

/-- An operation that does nothing. -/
theorem Counted.skip (h : Counted config msgId (op :: ops) s) : Counted config msgId ops s := by
  refine ⟨h.keyed, h.tracked, h.attempts, h.bounded, ?_⟩
  have hle : queued msgId ops ≤ queued msgId (op :: ops) := by
    cases op with
    | queueMessage message sendMode timeoutSeconds env => exact Nat.le_add_left ..
    | retryPass tick msgIds env => exact Nat.le_refl _
    | routingFeedback id status message now => exact Nat.le_refl _
    | notifyNodeOnline nodeId now => exact Nat.le_refl _
    | notifyClientSubscribed nodeId now => exact Nat.le_refl _
  rcases h.once with hnone | ⟨hone, hfresh⟩
  · exact Or.inl (by omega)
  · rcases Nat.lt_or_ge 0 (queued msgId ops) with hpos | hzero
    · exact Or.inr ⟨by omega, hfresh⟩
    · exact Or.inl (by omega)

/-- `queue_message` does nothing, or sends the message and puts it among the pending ones. -/
theorem step_queueMessage (config : MessageQueueConfig) (s : QueueShared)
    (message : OutboundMessage) (sendMode : SendMode) (timeoutSeconds : UInt32) (env : StepEnv) :
    s.step config (.queueMessage message sendMode timeoutSeconds env) = s ∨
    ∃ id entry, message.msgId = some id ∧ entry.message = message ∧ entry.retryCount = 0 ∧
      s.step config (.queueMessage message sendMode timeoutSeconds env)
        = { s with
            messageQueue := { pendingMessages := s.messageQueue.pendingMessages.insert id entry }
            outbound := s.outbound ++ [message] } := by
  let entry : QueuedMessage :=
    { message, retryCount := 0, queuedAt := env.now, nextRetryAt := env.now, sendMode,
      timeoutSeconds }
  unfold QueueShared.step
  dsimp only
  unfold MessageQueue.queueMessage
  cases hid : message.msgId with
  | none => exact Or.inl rfl
  | some id =>
    cases env.isOpen with
    | false => exact Or.inl rfl
    | true => exact Or.inr ⟨id, entry, rfl, rfl, rfl, rfl⟩

/-- A message is put among the pending ones under its ID. -/
theorem Keyed.insert (h : Keyed s) {id : UInt64} {entry : QueuedMessage}
    (hid : entry.message.msgId = some id) (outbound : List OutboundMessage) :
    Keyed { s with
      messageQueue := { pendingMessages := s.messageQueue.pendingMessages.insert id entry }
      outbound } := by
  intro other found hfound
  have hlookup : (s.messageQueue.pendingMessages.insert id entry).lookup other = some found :=
    hfound
  rw [HashMap.lookup_insert_ite] at hlookup
  split at hlookup
  next heq =>
    rw [← Option.some.inj hlookup, heq]
    exact hid
  next => exact h other found hlookup

/-- `queue_message`. -/
theorem Counted.queueMessage {message : OutboundMessage} {sendMode : SendMode}
    {timeoutSeconds : UInt32} {env : StepEnv}
    (h : Counted config msgId (.queueMessage message sendMode timeoutSeconds env :: ops) s) :
    Counted config msgId ops (s.step config (.queueMessage message sendMode timeoutSeconds env)) ∧
    ((s.step config (.queueMessage message sendMode timeoutSeconds env)).pending msgId = none →
      s.pending msgId = none) := by
  have hqueued : queued msgId (.queueMessage message sendMode timeoutSeconds env :: ops)
      = (if message.msgId = some msgId then 1 else 0) + queued msgId ops := rfl
  rcases step_queueMessage config s message sendMode timeoutSeconds env with
    hsame | ⟨id, entry, hid, hentry, hcount, hstep⟩
  · rw [hsame]
    exact ⟨h.skip, fun hnone => hnone⟩
  · rw [hstep]
    have hkeyed := h.keyed.insert (show entry.message.msgId = some id by rw [hentry, hid])
      (s.outbound ++ [message])
    by_cases hne : id = msgId
    · -- this is the message: it was never sent, and now it is pending
      subst hne
      have honce := h.once
      rw [hqueued, if_pos hid] at honce
      obtain ⟨hzero, hunsent, -⟩ := honce.resolve_left (by omega)
      have hsent := sent_append s id message
      rw [if_pos hid, hunsent] at hsent
      have hlookup := AList.lookup_insert (b := entry) s.messageQueue.pendingMessages (a := id)
      refine ⟨⟨hkeyed, h.tracked, fun found hfound => ?_, ?_, Or.inl (by omega)⟩, fun hnone => ?_⟩
      · rw [← Option.some.inj (hlookup.symm.trans hfound), hcount]
        exact ⟨hsent, UInt32.zero_le⟩
      · exact Nat.le_trans (Nat.le_of_eq hsent) (Nat.le_add_right ..)
      · exact absurd (hlookup.symm.trans hnone) (Option.some_ne_none entry)
    · have hother : message.msgId ≠ some msgId := by
        rw [hid, Option.some_inj.ne]
        exact hne
      have hlookup : (s.messageQueue.pendingMessages.insert id entry).lookup msgId
          = s.pending msgId := AList.lookup_insert_ne (Ne.symm hne)
      refine ⟨h.transfer ?_ hkeyed rfl ?_ fun found hfound => ?_, fun hnone => ?_⟩
      · rw [hqueued, if_neg hother, Nat.zero_add]
      · exact (sent_append s msgId message).trans (by rw [if_neg hother]; rfl)
      · exact ⟨found, hlookup.symm.trans hfound, rfl⟩
      · exact hlookup.symm.trans hnone

/-- The count of a message that may be retried does not wrap. -/
theorem toNat_succ_of_le {count : UInt32} (hmax : config.maxRetryAttempts ≤ 32)
    (hle : count ≤ config.maxRetryAttempts) : (count + 1).toNat = count.toNat + 1 := by
  have hlimit := UInt32.le_iff_toNat_le.mp (UInt32.le_trans hle hmax)
  rw [UInt32.toNat_add]
  exact Nat.mod_eq_of_lt (Nat.lt_of_le_of_lt (Nat.succ_le_succ hlimit) (by decide))

/-- A pass that visits the message. -/
theorem Counted.visited {env : StepEnv} {entry : QueuedMessage}
    (h : Counted config msgId (op :: ops) s) (hmax : config.maxRetryAttempts ≤ 32)
    (hqueued : queued msgId (op :: ops) = queued msgId ops)
    (hentry : s.pending msgId = some entry) (hretried : Retried config env msgId entry s s')
    (hkeyed : Keyed s')
    (htracked : (s'.messageTracker.lookup msgId).isSome
      = (s.messageTracker.lookup msgId).isSome) : Counted config msgId ops s' := by
  obtain ⟨hsent, hle⟩ := h.attempts entry hentry
  -- it is pending, so it was queued before
  have honce : queued msgId ops = 0 := by
    rw [← hqueued]
    refine h.once.resolve_right fun hfresh => ?_
    have hnone := hfresh.2.2.symm.trans hentry
    cases hnone
  -- the number of attempts matters only if it is pending again
  have hgone : s'.pending msgId = none → s'.sent msgId = s.sent msgId →
      Counted config msgId ops s' := by
    intro hpending hsame
    refine ⟨hkeyed, htracked.trans h.tracked, fun found hfound => ?_,
      Nat.le_trans (Nat.le_of_eq hsame) h.bounded, Or.inl honce⟩
    have hnone := hpending.symm.trans hfound
    cases hnone
  cases hretried with
  | exhausted _ hpending hsame _ => exact hgone hpending hsame
  | resent hwithin hpending hmore =>
    have hnext := toNat_succ_of_le hmax hle
    have hwithin' := UInt32.le_iff_toNat_le.mp hwithin
    refine ⟨hkeyed, htracked.trans h.tracked, fun found hfound => ?_,
      Nat.le_trans (Nat.le_of_eq hmore) (by omega), Or.inl honce⟩
    obtain rfl := Option.some.inj (hpending.symm.trans hfound)
    exact ⟨hmore.trans (by rw [hsent, hnext, Nat.add_assoc]), hwithin⟩
  | failed _ _ hpending hsame => exact hgone hpending hsame

/-- A pass after which the message is no longer pending. -/
theorem Counted.leaves {tick : Nat} {msgIds : List UInt64} {env : UInt64 → StepEnv}
    {entry : QueuedMessage} (h : Counted config msgId (op :: ops) s)
    (hmax : config.maxRetryAttempts ≤ 32) (hentry : s.pending msgId = some entry)
    (hretried : Retried config (env msgId) msgId entry s
      (s.step config (.retryPass tick msgIds env)))
    (hnone : (s.step config (.retryPass tick msgIds env)).pending msgId = none) :
    Leaves config msgId s (.retryPass tick msgIds env) := by
  obtain ⟨hsent, hle⟩ := h.attempts entry hentry
  have hle' := UInt32.le_iff_toNat_le.mp hle
  have hnext := toNat_succ_of_le hmax hle
  cases hretried with
  | exhausted hover hpending hsame hrecord =>
    have hover' := UInt32.lt_iff_toNat_lt.mp hover
    refine .exhausted (by omega) ?_
    obtain ⟨old, hold⟩ := Option.isSome_iff_exists.mp h.tracked
    rw [hold, Option.map_some] at hrecord
    exact Option.map_eq_some_iff.mp hrecord
  | resent hwithin hpending hmore =>
    exact absurd (hpending.symm.trans hnone) (Option.some_ne_none _)
  | failed hwithin hclosed hpending hsame =>
    have hwithin' := UInt32.le_iff_toNat_le.mp hwithin
    exact .failed hclosed (by omega)

/-- A retry pass. -/
theorem Counted.retryPass {tick : Nat} {msgIds : List UInt64} {env : UInt64 → StepEnv}
    (h : Counted config msgId (.retryPass tick msgIds env :: ops) s)
    (hmax : config.maxRetryAttempts ≤ 32) (horder : msgIds.Perm (s.messageQueue.due tick)) :
    Counted config msgId ops (s.step config (.retryPass tick msgIds env)) ∧
    ((s.step config (.retryPass tick msgIds env)).pending msgId = none →
      s.pending msgId = none ∨ Leaves config msgId s (.retryPass tick msgIds env)) := by
  have htracked := pass_tracked config tick env s msgId msgIds
  by_cases hin : msgId ∈ msgIds
  · obtain ⟨entry, hentry, -⟩ := MessageQueue.mem_due_iff.mp (horder.mem_iff.mp hin)
    obtain ⟨hretried, hkeyed⟩ := pass_retried config tick env h.keyed hentry
      (horder.nodup_iff.mpr (MessageQueue.due_nodup ..)) hin
    exact ⟨h.visited hmax rfl hentry hretried hkeyed htracked,
      fun hnone => Or.inr (h.leaves hmax hentry hretried hnone)⟩
  · obtain ⟨huntouched, hkeyed⟩ := pass_untouched config tick env h.keyed hin
    refine ⟨h.transfer rfl hkeyed htracked huntouched.sent fun entry hentry => ?_,
      fun hnone => Or.inl (huntouched.pending.symm.trans hnone)⟩
    exact ⟨entry, huntouched.pending.symm.trans hentry, rfl⟩

/-- `handle_routing_feedback`. -/
theorem Counted.routingFeedback {id : UInt64} {status : MessageStatus} {message : String}
    {now : Nat} (h : Counted config msgId (.routingFeedback id status message now :: ops) s) :
    Counted config msgId ops (s.step config (.routingFeedback id status message now)) ∧
    ((s.step config (.routingFeedback id status message now)).pending msgId = none →
      s.pending msgId = none ∨
        Leaves config msgId s (.routingFeedback id status message now)) := by
  have hlookup := MessageQueue.lookup_settle s.messageQueue id
  have hkept : ∀ other entry,
      (s.step config (.routingFeedback id status message now)).pending other = some entry →
      s.pending other = some entry := by
    intro other entry hentry
    have hif := (hlookup other status).symm.trans hentry
    split at hif
    next => cases hif
    next => exact hif
  refine ⟨h.transfer rfl (fun other entry hentry => h.keyed other entry (hkept other entry hentry))
    (MessageTracker.isSome_updateStatus ..) rfl
    (fun entry hentry => ⟨entry, hkept msgId entry hentry, rfl⟩), fun hnone => ?_⟩
  have hif := (hlookup msgId status).symm.trans hnone
  split at hif
  next hsettled =>
    obtain ⟨rfl, hsettles⟩ := hsettled
    exact Or.inr (.settled hsettles)
  next => exact Or.inl hif

/-- `notify_node_online` and `notify_client_subscribed`. -/
theorem Counted.notify (h : Counted config msgId (op :: ops) s)
    (hqueued : queued msgId (op :: ops) = queued msgId ops) (condition : WaitCondition) {now : Nat}
    (hstep : s.step config op = { s with
      messageQueue := (s.messageQueue.notify s.waitingMessages condition now).1
      waitingMessages := (s.messageQueue.notify s.waitingMessages condition now).2 }) :
    Counted config msgId ops (s.step config op) ∧
    ((s.step config op).pending msgId = none → s.pending msgId = none) := by
  have hlookup : ∀ other,
      ((s.step config op).pending other).map (fun entry => (entry.message, entry.retryCount))
        = (s.pending other).map fun entry => (entry.message, entry.retryCount) := by
    intro other
    rw [hstep]
    exact MessageQueue.lookup_notify ..
  have hkept : ∀ other entry, (s.step config op).pending other = some entry →
      ∃ old, s.pending other = some old ∧ old.message = entry.message ∧
        old.retryCount = entry.retryCount := by
    intro other entry hentry
    have hmap := hlookup other
    rw [hentry, Option.map_some] at hmap
    obtain ⟨old, hold, hpair⟩ := Option.map_eq_some_iff.mp hmap.symm
    rw [Prod.mk.injEq] at hpair
    exact ⟨old, hold, hpair⟩
  refine ⟨h.transfer hqueued (fun other entry hentry => ?_) (by rw [hstep]) (by rw [hstep]; rfl)
    (fun entry hentry => ?_), fun hnone => ?_⟩
  · obtain ⟨old, hold, hmessage, -⟩ := hkept other entry hentry
    rw [← hmessage]
    exact h.keyed other old hold
  · obtain ⟨old, hold, -, hcount⟩ := hkept msgId entry hentry
    exact ⟨old, hold, hcount⟩
  · have hmap := hlookup msgId
    rw [hnone, Option.map_none] at hmap
    exact Option.map_eq_none_iff.mp hmap.symm

/-- **One operation.** -/
theorem Counted.step (h : Counted config msgId (op :: ops) s)
    (hmax : config.maxRetryAttempts ≤ 32) (horder : InSomeOrder s op) :
    Counted config msgId ops (s.step config op) ∧
    ((s.step config op).pending msgId = none →
      s.pending msgId = none ∨ Leaves config msgId s op) := by
  cases op with
  | queueMessage message sendMode timeoutSeconds env => exact h.queueMessage.imp_right (Or.inl ∘ ·)
  | retryPass tick msgIds env => exact h.retryPass hmax horder
  | routingFeedback id status message now => exact h.routingFeedback
  | notifyNodeOnline nodeId now =>
    exact (h.notify rfl (.nodeOnline nodeId) rfl).imp_right (Or.inl ∘ ·)
  | notifyClientSubscribed nodeId now =>
    exact (h.notify rfl (.clientSubscription nodeId) rfl).imp_right (Or.inl ∘ ·)

/-- **A run of operations.** -/
theorem Counted.run {done : List QueueOp} (h : Counted config msgId (done ++ ops) s)
    (hmax : config.maxRetryAttempts ≤ 32)
    (hrun : Along (QueueShared.step config) InSomeOrder s done) :
    Counted config msgId ops (done.foldl (QueueShared.step config) s) := by
  induction done generalizing s with
  | nil => exact h
  | cons op done ih => exact ih (h.step hmax hrun.1).1 hrun.2

end Step

/-- A message that is queued once at most, and has not been queued yet. -/
theorem counted_new (config : MessageQueueConfig) {tracker : MessageTracker} {msgId : UInt64}
    (htracked : (tracker.lookup msgId).isSome = true) {ops : List QueueOp}
    (hone : queued msgId ops ≤ 1) : Counted config msgId ops (.new tracker) := by
  have hempty : ∀ id, (QueueShared.new tracker).pending id = none := fun _ => rfl
  refine ⟨fun id entry hentry => ?_, htracked, fun entry hentry => ?_, Nat.zero_le _, ?_⟩
  · rw [hempty] at hentry
    cases hentry
  · rw [hempty] at hentry
    cases hentry
  · rcases Nat.eq_zero_or_pos (queued msgId ops) with hzero | hpos
    · exact Or.inl hzero
    · exact Or.inr ⟨by omega, rfl, hempty msgId⟩

/-- **Retries are bounded.** A tracked message that is queued once is sent once and retried
`max_retry_attempts` times at most, with a delay that does not overflow, and leaves the
pending messages in one of three ways. -/
theorem retries_bounded (config : MessageQueueConfig) (hmax : config.maxRetryAttempts ≤ 32)
    (hbase : config.baseRetryInterval ≤ 3600 * nanosPerSec) (tracker : MessageTracker)
    (msgId : UInt64) (htracked : (tracker.lookup msgId).isSome = true) (ops : List QueueOp)
    (hone : queued msgId ops ≤ 1)
    (hrun : Along (QueueShared.step config) InSomeOrder (.new tracker) ops) :
    (∀ retryCount ≤ config.maxRetryAttempts,
      MessageQueue.retryDelayChecked config retryCount
        = some (MessageQueue.retryDelay config retryCount)) ∧
    (∀ done, done <+: ops →
      (done.foldl (QueueShared.step config) (.new tracker)).sent msgId
        ≤ 1 + config.maxRetryAttempts.toNat) ∧
    ∀ done op, done ++ [op] <+: ops →
      let s := done.foldl (QueueShared.step config) (.new tracker)
      s.pending msgId ≠ none → (s.step config op).pending msgId = none →
        Leaves config msgId s op := by
  have hnew := counted_new config htracked hone
  refine ⟨fun retryCount hcount => ?_, ?_, ?_⟩
  · exact MessageQueue.retryDelayChecked_of_fits (MessageQueue.delayFits_of_le hmax hcount hbase)
  · intro done hdone
    obtain ⟨rest, rfl⟩ := hdone
    exact (hnew.run hmax (along_append.mp hrun).1).bounded
  · intro done op hdone s hpending hgone
    obtain ⟨rest, rfl⟩ := hdone
    rw [List.append_assoc] at hnew hrun
    obtain ⟨hbefore, hafter⟩ := along_append.mp hrun
    have hstep := (hnew.run hmax hbefore).step hmax hafter.1
    exact (hstep.2 hgone).resolve_left hpending

/-- A configuration with one retry. -/
def oneRetry : MessageQueueConfig := { MessageQueueConfig.default with maxRetryAttempts := 1 }

/-- The tracker has a record of the message. -/
def firstTracker : MessageTracker := MessageTracker.trackMessage ∅ 1 .queued "" false 0

/-- The message is queued and retried; then it waits for its node, which makes it due. -/
def retriedOnce : List QueueOp :=
  [.queueMessage firstQueued.message .fireAndForget 0 openEnv, .retryPass 0 [1] fun _ => openEnv,
    .routingFeedback 1 .pendingNode "" 0, .notifyNodeOnline 2 5]

/-- The next pass gives it up. -/
theorem retries_bounded_oneRetry :
    let s := retriedOnce.foldl (QueueShared.step oneRetry) (.new firstTracker)
    let lastPass := QueueOp.retryPass 5 [1] fun _ => openEnv
    s.sent 1 = 2 ∧ (s.step oneRetry lastPass).sent 1 ≤ 2 ∧ Leaves oneRetry 1 s lastPass := by
  intro s lastPass
  obtain ⟨-, hbounded, hleaves⟩ := retries_bounded oneRetry (by decide) (by decide) firstTracker 1
    (by decide +kernel) (retriedOnce ++ [lastPass]) (by decide +kernel)
    (by decide +kernel)
  have hpending : (s.pending 1).isSome = true := by decide +kernel
  have hgone : ((s.step oneRetry lastPass).pending 1).isNone = true := by decide +kernel
  exact ⟨by decide +kernel, hbounded (retriedOnce ++ [lastPass]) List.prefix_rfl,
    hleaves retriedOnce lastPass List.prefix_rfl (Option.ne_none_iff_isSome.mpr hpending)
      (Option.isNone_iff_eq_none.mp hgone)⟩

end MeshCore.Grpc
