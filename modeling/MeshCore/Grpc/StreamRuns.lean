import MeshCore.Grpc.Streams

/-!
# What status streams show

In every schedule a stream shows `Queued` first and then states of the record of its message,
in the order in which the record went through them. Some it does not show, and some twice. It
shows at most one for each retry and each report, and one at the end. At most one call or the
queue has the sender (`senders_step`), and when none has it, nothing more is shown.

The status that settles a message need not be the last, nor be shown twice, and what comes
last need not settle the message (`stream_shows_overtaken`): a retry can come between the
notification and the removal.
-/

namespace MeshCore.Grpc

open MeshCore.Lib MeshCore.Session

namespace StreamTask

variable (config : MessageQueueConfig) (msgId : UInt64) (env : StepEnv)

/-! ## One operation -/

/-- What an operation of `Schedules.lean` does to the pending message. -/
theorem pending_plain (t : QueueTask) (s : StreamShared) :
    ((plain t).step config msgId env s).2.pending msgId
      = match t with
        | .queueInsert queued => some queued
        | .retryInsert queued => some queued
        | .retryRemove _ => none
        | .feedbackSettle status => if status.settles then none else s.pending msgId
        | _ => s.pending msgId := by
  unfold step StreamShared.pending
  cases t with
  | queueSend queued => cases h : env.isOpen <;> simp [QueueTask.step, h]
  | queueInsert queued => exact AList.lookup_insert _
  | retryRemove tick =>
    unfold QueueTask.step
    dsimp only
    cases h : s.queue.messageQueue.pendingMessages.lookup msgId with
    | none => exact h
    | some queued => exact AList.lookup_erase _ _
  | retryStatus tick queued =>
    unfold QueueTask.step
    dsimp only
    split <;> rfl
  | retrySend queued => cases h : env.isOpen <;> simp [QueueTask.step, h]
  | retryFail => rfl
  | retryInsert queued => exact AList.lookup_insert _
  | feedbackStatus status message => rfl
  | feedbackSettle status =>
    refine (MessageQueue.lookup_settle ..).trans ?_
    simp
  | done => rfl

/-- What follows an operation on the pending message or on one in hand. -/
theorem next_plain (t : QueueTask) (s : StreamShared) :
    ((plain t).step config msgId env s).1
      = match t with
        | .queueSend queued => if env.isOpen then plain (.queueInsert queued) else plain .done
        | .retryRemove tick =>
          match s.pending msgId with
          | none => plain .done
          | some queued =>
            plain (.retryStatus tick { queued with retryCount := queued.retryCount + 1 })
        | .retryStatus tick queued =>
          if queued.retryCount > config.maxRetryAttempts then retryNotify none
          else retryNotify (some { queued with
            nextRetryAt := tick + MessageQueue.retryDelay config queued.retryCount })
        | .retrySend queued => if env.isOpen then plain (.retryInsert queued) else plain .retryFail
        | .feedbackStatus status _ => feedbackNotify status
        | .feedbackSettle status =>
          if status.settles && (s.pending msgId).isSome then settledNotify else plain .done
        | _ => plain .done := by
  unfold step
  cases t with
  | queueSend queued => cases h : env.isOpen <;> simp [QueueTask.step, QueueTask.follow, h]
  | queueInsert queued => rfl
  | retryRemove tick =>
    unfold QueueTask.step StreamShared.pending
    cases s.queue.messageQueue.pendingMessages.lookup msgId with
    | none => rfl
    | some queued => rfl
  | retryStatus tick queued =>
    unfold QueueTask.step
    dsimp only
    split <;> rfl
  | retrySend queued => cases h : env.isOpen <;> simp [QueueTask.step, QueueTask.follow, h]
  | retryFail => rfl
  | retryInsert queued => rfl
  | feedbackStatus status message => rfl
  | feedbackSettle status => rfl
  | done => rfl

/-- **One operation** hands the sender on, or drops it. -/
theorem senders_step (t : StreamTask) (s : StreamShared) :
    (t.step config msgId env s).1.holdsTx.toNat
        + ((t.step config msgId env s).2.pending msgId).isSome.toNat
      ≤ t.holdsTx.toNat + (s.pending msgId).isSome.toNat := by
  have hdrops : 0 + (s.pending msgId).isSome.toNat ≤ 1 + (s.pending msgId).isSome.toNat :=
    Nat.add_le_add_right (Nat.zero_le 1) _
  cases t with
  | plain t =>
    rw [pending_plain, next_plain]
    cases t with
    | queueSend queued => cases env.isOpen <;> simp [holdsTx]
    | queueInsert queued => simp [holdsTx]
    | retryRemove tick => cases s.pending msgId <;> simp [holdsTx]
    | retryStatus tick queued =>
      dsimp only
      split <;> simp [holdsTx]
    | retrySend queued => cases env.isOpen <;> simp [holdsTx]
    | retryFail => simp [holdsTx]
    | retryInsert queued => simp [holdsTx]
    | feedbackStatus status message => simp [holdsTx]
    | feedbackSettle status =>
      dsimp only
      cases status.settles <;> cases s.pending msgId <;> simp [holdsTx]
    | done => simp [holdsTx]
  | retryNotify queued =>
    cases queued with
    | none => exact hdrops
    | some queued => exact Nat.le_refl _
  | reportStatus status message => exact Nat.le_refl _
  | feedbackNotify status =>
    unfold step
    dsimp only
    split <;> exact Nat.le_refl _
  | settledNotify => exact hdrops
  | trackerUpdate status message => exact Nat.le_refl _
  | trackerRemove => exact Nat.le_refl _

/-- **One operation** sends the record into the stream, or nothing; and nothing if the message
is neither pending nor in hand. -/
theorem stream_step (t : StreamTask) (s : StreamShared) :
    ∃ infos, (t.step config msgId env s).2.stream = s.stream.map (· ++ infos) ∧
      infos.Sublist (s.recorded msgId) ∧
      (t.holdsTx = false → s.pending msgId = none → infos = []) := by
  have hnothing : s.stream = s.stream.map (· ++ []) := by simp
  have hshows : (s.notify msgId).stream = s.stream.map (· ++ s.recorded msgId) := rfl
  cases t with
  | plain t => exact ⟨[], hnothing, List.nil_sublist _, fun _ _ => rfl⟩
  | retryNotify queued =>
    cases queued with
    | none => exact ⟨_, hshows, .refl _, fun h => absurd h (by simp [holdsTx])⟩
    | some queued => exact ⟨_, hshows, .refl _, fun h => absurd h (by simp [holdsTx])⟩
  | reportStatus status message => exact ⟨[], hnothing, List.nil_sublist _, fun _ _ => rfl⟩
  | feedbackNotify status =>
    unfold step
    dsimp only
    cases hpending : s.pending msgId with
    | none => exact ⟨[], hnothing, List.nil_sublist _, fun _ _ => rfl⟩
    | some queued => exact ⟨_, hshows, .refl _, fun _ h => absurd h (by simp)⟩
  | settledNotify => exact ⟨_, hshows, .refl _, fun h => absurd h (by simp [holdsTx])⟩
  | trackerUpdate status message => exact ⟨[], hnothing, List.nil_sublist _, fun _ _ => rfl⟩
  | trackerRemove => exact ⟨[], hnothing, List.nil_sublist _, fun _ _ => rfl⟩

/-- **The stream changes nothing else:** what a call does next and what it does to the rest is
the same whatever the stream has shown, and without one. -/
theorem step_without (t : StreamTask) {s s' : StreamShared} (h : s'.queue = s.queue) :
    (t.step config msgId env s').1 = (t.step config msgId env s).1 ∧
      (t.step config msgId env s').2.queue = (t.step config msgId env s).2.queue := by
  have hpending : s'.pending msgId = s.pending msgId := by
    unfold StreamShared.pending
    rw [h]
  cases t with
  | plain t =>
    unfold step
    dsimp only
    rw [hpending, h]
    exact ⟨rfl, rfl⟩
  | retryNotify queued => cases queued <;> exact ⟨rfl, h⟩
  | reportStatus status message =>
    unfold step StreamShared.updateStatus
    rw [h]
    exact ⟨rfl, rfl⟩
  | feedbackNotify status =>
    unfold step
    dsimp only
    rw [hpending]
    split <;> exact ⟨rfl, h⟩
  | settledNotify => exact ⟨rfl, h⟩
  | trackerUpdate status message =>
    unfold step StreamShared.updateStatus
    rw [h]
    exact ⟨rfl, rfl⟩
  | trackerRemove =>
    unfold step StreamShared.removeRecord
    rw [h]
    exact ⟨rfl, rfl⟩

/-! ## How much is shown -/

/-- How often the message was retried is within the bound, for a message in hand. -/
def Counted (t : StreamTask) : Prop :=
  match t with
  | plain (.queueSend queued) => queued.retryCount.toNat ≤ config.maxRetryAttempts.toNat
  | plain (.queueInsert queued) => queued.retryCount.toNat ≤ config.maxRetryAttempts.toNat
  | plain (.retryStatus _ queued) =>
    queued.retryCount.toNat ≤ config.maxRetryAttempts.toNat + 1
  | retryNotify (some queued) => queued.retryCount.toNat ≤ config.maxRetryAttempts.toNat
  | plain (.retrySend queued) => queued.retryCount.toNat ≤ config.maxRetryAttempts.toNat
  | plain (.retryInsert queued) => queued.retryCount.toNat ≤ config.maxRetryAttempts.toNat
  | _ => True

/-- It is for the pending one. -/
def PendingCounted (s : StreamShared) : Prop :=
  ∀ queued, s.pending msgId = some queued → queued.retryCount.toNat ≤ config.maxRetryAttempts.toNat

/-- How many statuses the retries of a message, and the one that settles it, can still show. -/
def attemptsLeft (queued : QueuedMessage) : Nat :=
  config.maxRetryAttempts.toNat + 1 - queued.retryCount.toNat

/-- How many statuses a call can still show, with the sender it has. -/
def mayShow : StreamTask → Nat
  | plain (.queueSend queued) => attemptsLeft config queued
  | plain (.queueInsert queued) => attemptsLeft config queued
  | plain (.retryStatus _ queued) => config.maxRetryAttempts.toNat + 2 - queued.retryCount.toNat
  | retryNotify (some queued) => 1 + attemptsLeft config queued
  | retryNotify none => 1
  | plain (.retrySend queued) => attemptsLeft config queued
  | plain (.retryInsert queued) => attemptsLeft config queued
  | settledNotify => 1
  | reportStatus _ _ => 1
  | plain (.feedbackStatus _ _) => 1
  | feedbackNotify _ => 1
  | _ => 0

/-- What has been shown, and how many statuses the pending message can still show. -/
def shownOrLeft (s : StreamShared) : Nat :=
  (s.stream.map List.length).getD 0 + ((s.pending msgId).map (attemptsLeft config)).getD 0

variable {config msgId env}

/-- An operation of `Schedules.lean` keeps the numbers of retries within the bound. -/
theorem counted_plain {t : QueueTask} {s : StreamShared} (ht : (plain t).Counted config)
    (hs : PendingCounted config msgId s) :
    ((plain t).step config msgId env s).1.Counted config ∧
      PendingCounted config msgId ((plain t).step config msgId env s).2 := by
  unfold PendingCounted
  rw [pending_plain, next_plain]
  cases t with
  | queueSend queued =>
    refine ⟨?_, hs⟩
    dsimp only
    split
    · exact ht
    · trivial
  | queueInsert queued => exact ⟨trivial, fun queued' h => Option.some.inj h ▸ ht⟩
  | retryRemove tick =>
    refine ⟨?_, fun queued h => absurd h (by simp)⟩
    dsimp only
    cases hpending : s.pending msgId with
    | none => trivial
    | some queued =>
      have hle := hs queued hpending
      show (queued.retryCount + 1).toNat ≤ _
      rw [UInt32.toNat_add]
      exact (Nat.mod_le _ _).trans (Nat.succ_le_succ hle)
  | retryStatus tick queued =>
    refine ⟨?_, hs⟩
    dsimp only
    split
    · trivial
    next hmore => exact UInt32.le_iff_toNat_le.mp (UInt32.not_lt.mp hmore)
  | retrySend queued =>
    refine ⟨?_, hs⟩
    dsimp only
    split
    · exact ht
    · trivial
  | retryFail => exact ⟨trivial, hs⟩
  | retryInsert queued => exact ⟨trivial, fun queued' h => Option.some.inj h ▸ ht⟩
  | feedbackStatus status message => exact ⟨trivial, hs⟩
  | feedbackSettle status =>
    constructor
    · dsimp only
      split <;> trivial
    · dsimp only
      intro queued h
      split at h
      · exact absurd h (by simp)
      · exact hs queued h
  | done => exact ⟨trivial, hs⟩

/-- **One operation** keeps the numbers of retries within the bound. -/
theorem counted_step {t : StreamTask} {s : StreamShared} (ht : t.Counted config)
    (hs : PendingCounted config msgId s) :
    (t.step config msgId env s).1.Counted config ∧
      PendingCounted config msgId (t.step config msgId env s).2 := by
  cases t with
  | plain t => exact counted_plain ht hs
  | retryNotify queued =>
    cases queued with
    | none => exact ⟨trivial, hs⟩
    | some queued => exact ⟨ht, hs⟩
  | reportStatus status message => exact ⟨trivial, hs⟩
  | feedbackNotify status =>
    refine ⟨trivial, ?_⟩
    unfold step
    dsimp only
    split
    · exact hs
    · exact hs
  | settledNotify => exact ⟨trivial, hs⟩
  | trackerUpdate status message => exact ⟨trivial, hs⟩
  | trackerRemove => exact ⟨trivial, hs⟩

/-- A notification shows one status at most. -/
theorem shownOrLeft_notify (config : MessageQueueConfig) (msgId : UInt64) (s : StreamShared) :
    shownOrLeft config msgId (s.notify msgId) ≤ shownOrLeft config msgId s + 1 := by
  have hone : (s.recorded msgId).length ≤ 1 := by
    unfold StreamShared.recorded
    cases s.queue.messageTracker.lookup msgId <;> simp
  unfold shownOrLeft
  rw [show (s.notify msgId).pending msgId = s.pending msgId from rfl]
  unfold StreamShared.notify
  cases s.stream with
  | none => simp
  | some shown =>
    simp only [Option.map_some, Option.getD_some, List.length_append]
    omega

/-- An operation of `Schedules.lean` shows nothing, and lets no more be shown than before. -/
theorem mayShow_plain (hmax : config.maxRetryAttempts.toNat + 1 < 2 ^ 32) {t : QueueTask}
    {s : StreamShared} (ht : (plain t).Counted config) (hs : PendingCounted config msgId s) :
    ((plain t).step config msgId env s).1.mayShow config
        + shownOrLeft config msgId ((plain t).step config msgId env s).2
      ≤ (plain t).mayShow config + shownOrLeft config msgId s := by
  unfold shownOrLeft
  rw [pending_plain, next_plain]
  show _ + ((s.stream.map List.length).getD 0 + _) ≤ _
  cases t with
  | queueSend queued => cases env.isOpen <;> simp [mayShow]
  | queueInsert queued => simp [mayShow]; omega
  | retryRemove tick =>
    dsimp only
    cases hpending : s.pending msgId with
    | none => simp [mayShow]
    | some queued =>
      have hle := hs queued hpending
      simp only [mayShow, attemptsLeft, Option.map_none, Option.map_some, Option.getD_none,
        Option.getD_some]
      rw [UInt32.toNat_add, Nat.mod_eq_of_lt (by simp; omega)]
      simp
      omega
  | retryStatus tick queued =>
    have hle : queued.retryCount.toNat ≤ config.maxRetryAttempts.toNat + 1 := ht
    dsimp only
    split
    next hlast =>
      simp only [mayShow]
      omega
    next hmore =>
      have hle := UInt32.le_iff_toNat_le.mp (UInt32.not_lt.mp hmore)
      simp only [mayShow, attemptsLeft]
      omega
  | retrySend queued => cases env.isOpen <;> simp [mayShow]
  | retryFail => simp [mayShow]
  | retryInsert queued => simp [mayShow]; omega
  | feedbackStatus status message => simp [mayShow]
  | feedbackSettle status =>
    dsimp only
    cases hpending : s.pending msgId with
    | none => cases status.settles <;> simp [mayShow]
    | some queued =>
      have hle := hs queued hpending
      cases status.settles with
      | true =>
        simp only [mayShow, attemptsLeft, Option.isSome_some, Bool.and_true, if_true,
          Option.map_none, Option.map_some, Option.getD_none, Option.getD_some]
        omega
      | false => simp [mayShow]
  | done => simp [mayShow]

/-- **One operation** uses up what it shows. -/
theorem mayShow_step (hmax : config.maxRetryAttempts.toNat + 1 < 2 ^ 32) {t : StreamTask}
    {s : StreamShared} (ht : t.Counted config) (hs : PendingCounted config msgId s) :
    (t.step config msgId env s).1.mayShow config
        + shownOrLeft config msgId (t.step config msgId env s).2
      ≤ t.mayShow config + shownOrLeft config msgId s := by
  have hnotify := shownOrLeft_notify config msgId s
  cases t with
  | plain t => exact mayShow_plain hmax ht hs
  | retryNotify queued =>
    cases queued with
    | none =>
      show 0 + shownOrLeft config msgId (s.notify msgId) ≤ 1 + _
      omega
    | some queued =>
      show attemptsLeft config queued + shownOrLeft config msgId (s.notify msgId)
        ≤ 1 + attemptsLeft config queued + _
      omega
  | reportStatus status message => exact Nat.le_refl _
  | feedbackNotify status =>
    unfold step
    dsimp only
    split
    · show 0 + shownOrLeft config msgId (s.notify msgId) ≤ 1 + _
      omega
    · exact Nat.add_le_add_right (Nat.zero_le 1) _
  | settledNotify =>
    show 0 + shownOrLeft config msgId (s.notify msgId) ≤ 1 + _
    omega
  | trackerUpdate status message => exact Nat.le_refl _
  | trackerRemove => exact Nat.le_refl _

end StreamTask

/-! ## Runs -/

namespace StreamPool

variable {config : MessageQueueConfig} {msgId : UInt64}

/-- Every call knows a number of retries within the bound, and so does the queue. -/
def Counted (config : MessageQueueConfig) (msgId : UInt64) (p : StreamPool) : Prop :=
  p.Inv (StreamTask.Counted config) (StreamTask.PendingCounted config msgId)

/-- What has been shown, and how many statuses can still be. -/
def budget (config : MessageQueueConfig) (msgId : UInt64) (p : StreamPool) : Nat :=
  p.weight (StreamTask.mayShow config) (StreamTask.shownOrLeft config msgId)

theorem holdsTx_task (call : StreamCall) : call.task.holdsTx = false := by
  cases call <;> rfl

/-- Where there is no sender, no call has it and the message is not pending. -/
theorem no_sender {p : StreamPool} (h : p.senders msgId = 0) {t : StreamTask} (ht : t ∈ p.tasks) :
    t.holdsTx = false ∧ p.shared.pending msgId = none := by
  have hle := Pool.le_weight (fun t : StreamTask => t.holdsTx.toNat)
    (fun s : StreamShared => (s.pending msgId).isSome.toNat) ht
  have hzero := Nat.le_zero.mp (hle.trans h.le)
  obtain ⟨htask, hpending⟩ := Nat.add_eq_zero_iff.mp hzero
  exact ⟨Bool.toNat_eq_zero.mp htask, by simpa using hpending⟩

/-- **One event** sends the record into the stream, or nothing; and nothing where there is no
sender. -/
theorem stream_step (config : MessageQueueConfig) (msgId : UInt64) (p : StreamPool)
    (e : StreamEvent) :
    ∃ infos, (p.step config msgId e).shared.stream = p.shared.stream.map (· ++ infos) ∧
      infos.Sublist (p.shared.recorded msgId) ∧ (p.senders msgId = 0 → infos = []) := by
  have hnothing : p.shared.stream = p.shared.stream.map (· ++ []) := by simp
  cases e with
  | starts call => exact ⟨[], hnothing, List.nil_sublist _, fun _ => rfl⟩
  | steps i env =>
    unfold step Pool.advance
    dsimp only
    cases hget : p.tasks[i]? with
    | none => exact ⟨[], hnothing, List.nil_sublist _, fun _ => rfl⟩
    | some t =>
      obtain ⟨infos, hstream, hsub, hnone⟩ := t.stream_step config msgId env p.shared
      refine ⟨infos, hstream, hsub, fun h => ?_⟩
      obtain ⟨htask, hpending⟩ := no_sender h (List.mem_of_getElem? hget)
      exact hnone htask hpending

/-- **One event** makes no sender. -/
theorem senders_step_le (p : StreamPool) (e : StreamEvent) :
    (p.step config msgId e).senders msgId ≤ p.senders msgId := by
  cases e with
  | starts call =>
    refine (Pool.weight_spawn ..).le.trans ?_
    rw [holdsTx_task]
    exact Nat.le_refl _
  | steps i env =>
    exact Pool.weight_advance_le (P := fun _ => True) (I := fun _ => True)
      (fun t s _ _ => t.senders_step config msgId env s) ⟨fun _ _ => trivial, trivial⟩ i

/-- **One event** keeps the numbers of retries within the bound. -/
theorem Counted.step {p : StreamPool} (h : p.Counted config msgId) (e : StreamEvent) :
    (p.step config msgId e).Counted config msgId := by
  cases e with
  | starts call => exact h.spawn (by cases call <;> trivial)
  | steps i env => exact h.advance (fun _ _ ht hs => StreamTask.counted_step ht hs) i

/-- **One event** uses up what it shows; a report brings one status more. -/
theorem budget_step_le (hmax : config.maxRetryAttempts.toNat + 1 < 2 ^ 32) {p : StreamPool}
    (h : p.Counted config msgId) (e : StreamEvent) :
    (p.step config msgId e).budget config msgId
      ≤ p.budget config msgId + e.isReport.toNat := by
  cases e with
  | starts call =>
    refine (Pool.weight_spawn ..).le.trans ?_
    cases call <;> exact Nat.le_refl _
  | steps i env =>
    exact Pool.weight_advance_le (fun _ _ ht hs => StreamTask.mayShow_step hmax ht hs) h i

/-- **In a run** the stream shows states of the record, in their order. -/
theorem stream_run (config : MessageQueueConfig) (msgId : UInt64) (p : StreamPool)
    (events : List StreamEvent) :
    ∃ rest, (p.run config msgId events).shared.stream = p.shared.stream.map (· ++ rest) ∧
      rest.Sublist (p.history config msgId events) := by
  induction events generalizing p with
  | nil => exact ⟨[], by simp [run], List.nil_sublist _⟩
  | cons e events ih =>
    obtain ⟨infos, hstream, hinfos, -⟩ := stream_step config msgId p e
    obtain ⟨rest, hrun, hrest⟩ := ih (p.step config msgId e)
    refine ⟨infos ++ rest, ?_, hinfos.append hrest⟩
    refine hrun.trans ?_
    rw [hstream, Option.map_map]
    simp only [Function.comp_def, List.append_assoc]

theorem senders_run_le (p : StreamPool) (events : List StreamEvent) :
    (p.run config msgId events).senders msgId ≤ p.senders msgId := by
  induction events generalizing p with
  | nil => exact Nat.le_refl _
  | cons e events ih => exact (ih _).trans (p.senders_step_le e)

/-- **Without a sender** nothing more is shown. -/
theorem silent_run {p : StreamPool} (h : p.senders msgId = 0) (events : List StreamEvent) :
    (p.run config msgId events).shared.stream = p.shared.stream := by
  induction events generalizing p with
  | nil => rfl
  | cons e events ih =>
    obtain ⟨infos, hstream, -, hnone⟩ := stream_step config msgId p e
    have hsame : (p.step config msgId e).shared.stream = p.shared.stream := by
      rw [hstream, hnone h]
      simp
    exact (ih (Nat.le_zero.mp ((p.senders_step_le e).trans h.le))).trans hsame

/-- **In a run** no more is shown than the budget allows. -/
theorem budget_run_le (hmax : config.maxRetryAttempts.toNat + 1 < 2 ^ 32) {p : StreamPool}
    (h : p.Counted config msgId) (events : List StreamEvent) :
    (p.run config msgId events).budget config msgId
      ≤ p.budget config msgId + events.countP StreamEvent.isReport := by
  induction events generalizing p with
  | nil => exact Nat.le_refl _
  | cons e events ih =>
    have hstep := budget_step_le hmax h e
    have hrun : ((p.step config msgId e).run config msgId events).budget config msgId ≤ _ :=
      ih (h.step e)
    rw [List.countP_cons]
    refine hrun.trans ?_
    cases hreport : e.isReport with
    | true =>
      rw [hreport] at hstep
      simp only [Bool.toNat_true, if_true] at hstep ⊢
      omega
    | false =>
      rw [hreport] at hstep
      simp only [Bool.toNat_false, Bool.false_eq_true, if_false] at hstep ⊢
      omega

/-- **In a run** the calls do the same whatever the stream shows, and without one. -/
theorem run_without {p q : StreamPool} (htasks : q.tasks = p.tasks)
    (hqueue : q.shared.queue = p.shared.queue) (events : List StreamEvent) :
    (q.run config msgId events).tasks = (p.run config msgId events).tasks ∧
      (q.run config msgId events).shared.queue = (p.run config msgId events).shared.queue := by
  induction events generalizing p q with
  | nil => exact ⟨htasks, hqueue⟩
  | cons e events ih =>
    have hstep : (q.step config msgId e).tasks = (p.step config msgId e).tasks ∧
        (q.step config msgId e).shared.queue = (p.step config msgId e).shared.queue := by
      cases e with
      | starts call => exact ⟨congrArg (· ++ _) htasks, hqueue⟩
      | steps i env =>
        unfold step Pool.advance
        dsimp only
        rw [htasks]
        cases p.tasks[i]? with
        | none => exact ⟨htasks, hqueue⟩
        | some t =>
          obtain ⟨hnext, hshared⟩ := t.step_without config msgId env hqueue
          exact ⟨congrArg (p.tasks.set i) hnext, hshared⟩
    exact ih hstep.1 hstep.2

/-- The last notification leaves nobody the sender. -/
theorem senders_last {p : StreamPool} (h : p.senders msgId ≤ 1) {i : Nat} {t : StreamTask}
    (ht : p.tasks[i]? = some t) (hlast : t.isLast = true) (env : StepEnv) :
    (p.step config msgId (.steps i env)).senders msgId = 0 := by
  have hweight := Pool.weight_advance (fun t : StreamTask => t.holdsTx.toNat)
    (fun s : StreamShared => (s.pending msgId).isSome.toNat)
    (StreamTask.step config msgId env) ht
  have hholds : t.holdsTx = true ∧ (t.step config msgId env p.shared).1.holdsTx = false ∧
      (t.step config msgId env p.shared).2.pending msgId = p.shared.pending msgId := by
    unfold StreamTask.isLast at hlast
    split at hlast
    · exact ⟨rfl, rfl, rfl⟩
    · exact ⟨rfl, rfl, rfl⟩
    · exact absurd hlast Bool.false_ne_true
  obtain ⟨hbefore, hafter, hpending⟩ := hholds
  rw [hbefore, hafter, hpending] at hweight
  unfold senders at h ⊢
  unfold step
  dsimp only at hweight ⊢
  simp only [Bool.toNat_true, Bool.toNat_false] at hweight
  omega

/-! ## At the start -/

section Start

variable {shared : QueueShared} {queued : QueuedMessage} {stream : Option (List MessageStatusInfo)}

theorem senders_start (hfresh : shared.messageQueue.pendingMessages.lookup msgId = none) :
    (start shared queued stream).senders msgId = 1 := by
  have hpending : (start shared queued stream).shared.pending msgId = none := hfresh
  show 1 + ((start shared queued stream).shared.pending msgId).isSome.toNat = 1
  rw [hpending]
  rfl

theorem counted_start (hcount : queued.retryCount = 0)
    (hfresh : shared.messageQueue.pendingMessages.lookup msgId = none) :
    (start shared queued stream).Counted config msgId := by
  refine ⟨fun t ht => ?_, fun queued h => absurd (hfresh.symm.trans h) (by simp)⟩
  rw [List.mem_singleton.mp ht]
  show queued.retryCount.toNat ≤ _
  rw [hcount]
  exact Nat.zero_le _

theorem budget_start (hcount : queued.retryCount = 0)
    (hfresh : shared.messageQueue.pendingMessages.lookup msgId = none) :
    (start shared queued stream).budget config msgId
      = config.maxRetryAttempts.toNat + 1 + (stream.map List.length).getD 0 := by
  have hpending : (start shared queued stream).shared.pending msgId = none := hfresh
  unfold budget Pool.weight StreamTask.shownOrLeft
  rw [hpending]
  show config.maxRetryAttempts.toNat + 1 - queued.retryCount.toNat + 0
    + ((stream.map List.length).getD 0 + 0) = _
  rw [hcount]
  rfl

end Start

/-- What has been shown is within the budget. -/
theorem length_le_budget {p : StreamPool} {shown : List MessageStatusInfo}
    (h : p.shared.stream = some shown) : shown.length ≤ p.budget config msgId := by
  unfold budget Pool.weight StreamTask.shownOrLeft
  rw [h, Option.map_some, Option.getD_some]
  omega

end StreamPool

/-- **What a status stream shows**, in every schedule of the call that queues its message, of
any retry passes and reports, and of anything else that writes or removes the record. After
the status it begins with, it shows states the record went through, in their order, at most
one for each retry and each report and one at the end. At most one call, or the queue, has
the sender. The notification of a call that drops the message leaves nobody the sender, and
then nothing more is shown. Without the stream the calls do the same in every step. -/
theorem stream_shows (config : MessageQueueConfig) (msgId : UInt64)
    (hmax : config.maxRetryAttempts.toNat + 1 < 2 ^ 32) (shared : QueueShared)
    (queued : QueuedMessage) (hcount : queued.retryCount = 0)
    (hfresh : shared.messageQueue.pendingMessages.lookup msgId = none)
    (initial : MessageStatusInfo) (events : List StreamEvent) :
    let start := StreamPool.start shared queued (some [initial])
    let p := start.run config msgId events
    (∃ rest, p.shared.stream = some (initial :: rest) ∧
      rest.Sublist (start.history config msgId events) ∧
      rest.length
        ≤ config.maxRetryAttempts.toNat + 1 + events.countP StreamEvent.isReport) ∧
    p.senders msgId ≤ 1 ∧
    (∀ i t env, p.tasks[i]? = some t → t.isLast = true →
      (p.step config msgId (.steps i env)).senders msgId = 0) ∧
    (p.senders msgId = 0 →
      ∀ later, (p.run config msgId later).shared.stream = p.shared.stream) ∧
    ((StreamPool.start shared queued none).run config msgId events).tasks = p.tasks ∧
    ((StreamPool.start shared queued none).run config msgId events).shared.queue
      = p.shared.queue := by
  intro start p
  have hone : p.senders msgId ≤ 1 :=
    (start.senders_run_le events).trans (StreamPool.senders_start hfresh).le
  obtain ⟨rest, hrest, hsub⟩ := start.stream_run config msgId events
  have hshown : p.shared.stream = some (initial :: rest) := hrest
  refine ⟨⟨rest, hshown, hsub, ?_⟩, hone, fun i t env ht hlast => ?_, fun h later => ?_,
    StreamPool.run_without (p := start) (q := .start shared queued none) rfl rfl events⟩
  · have hcounted : start.Counted config msgId := StreamPool.counted_start hcount hfresh
    have hbudget := StreamPool.budget_run_le hmax hcounted events
    have hle : (initial :: rest).length ≤ p.budget config msgId :=
      StreamPool.length_le_budget hshown
    have hall := hle.trans hbudget
    rw [StreamPool.budget_start hcount hfresh, List.length_cons] at hall
    simp only [Option.map_some, Option.getD_some, List.length_singleton] at hall
    omega
  · exact StreamPool.senders_last hone ht hlast env
  · exact StreamPool.silent_run h later

/-- Message 1 is queued with a stream. -/
def streamedFirst : StreamPool :=
  .start { messageQueue := { pendingMessages := ∅ }, waitingMessages := ∅
           messageTracker := (∅ : MessageTracker).trackMessage 1 .queued "" false 0
           outbound := [] } firstQueued
    (some [.ofRecord (.new 1 .queued "" false 0)])

/-- A report that it was delivered is shown. Before the report takes the message out, a retry
pass has it in hand and puts it back. -/
def overtakenReport : List StreamEvent :=
  [.steps 0 openEnv, .steps 0 openEnv, .starts (.report .delivered ""), .steps 1 openEnv,
    .steps 1 openEnv, .steps 1 openEnv, .starts (.retryPass 0), .steps 2 openEnv, .steps 2 openEnv,
    .steps 2 openEnv, .steps 2 openEnv, .steps 2 openEnv]

/-- The stream shows `Queued`, `Delivered` and `Queued` and is open, and then ends with
`Queued` once more. -/
theorem stream_shows_overtaken :
    let p := streamedFirst.run .default 1 overtakenReport
    let last := p.run .default 1 [.steps 1 openEnv, .steps 1 openEnv]
    p.shared.stream.map (·.map MessageStatusInfo.status) = some [.queued, .delivered, .queued] ∧
      p.senders 1 = 1 ∧
      last.shared.stream.map (·.map MessageStatusInfo.status)
        = some [.queued, .delivered, .queued, .queued] ∧
      ∀ later, (last.run .default 1 later).shared.stream = last.shared.stream := by
  intro p last
  refine ⟨by decide +kernel, by decide +kernel, by decide +kernel, ?_⟩
  obtain ⟨-, -, -, hsilent, -⟩ := stream_shows .default 1 (by decide) streamedFirst.shared.queue
    firstQueued rfl rfl (.ofRecord (.new 1 .queued "" false 0))
    (overtakenReport ++ [.steps 1 openEnv, .steps 1 openEnv])
  exact hsilent (by decide +kernel)

end MeshCore.Grpc
