import MeshCore.Session.Credits

/-!
# The queue of unsent frames

Frames that the credits do not cover wait in `pending_frames`. The ids in the
queue increase and are below the next id (`queue_ok`), so what its first frame is
like decides about all of them. Three results rest on that.

Order: frames leave in the order of their ids as long as `send_data` does not
write while others wait (`frames_in_order`). It does whenever the credits cover
the new frame, even if the one at the head of the queue is too long for them.

Acknowledged frames: `process_ack_frame` cuts the log at the watermark but not
the queue, so it writes an acknowledged frame exactly if the first one waiting is
acknowledged and covered, and the connection takes it (`ack_writes_new_iff`).

RESUME: `handle_resume` stops at the first log entry the credits do not cover and
queues neither it nor the ones after it, as `send_data` would. They are left
behind unless they are waiting already (`resume_strands_nothing_iff`).
-/

namespace MeshCore.Session

open MeshCore.Lib MeshCore.Wire MeshCore.Storage ReliabilityManager

variable {σ : Type}

/-! ## Ids in order -/

/-- The ids of the frames increase and are below `next`. -/
structure IdsBelow (next : Nat) (frames : List (Nat × Bytes)) : Prop where
  increasing : (frames.map Prod.fst).Pairwise (· < ·)
  below : ∀ frame ∈ frames, frame.1 < next

theorem idsBelow_nil (next : Nat) : IdsBelow next [] :=
  ⟨List.Pairwise.nil, fun _ h => absurd h (List.not_mem_nil)⟩

theorem IdsBelow.mono {next next' : Nat} {frames : List (Nat × Bytes)} (h : IdsBelow next frames)
    (hle : next ≤ next') : IdsBelow next' frames :=
  ⟨h.increasing, fun frame hf => Nat.lt_of_lt_of_le (h.below frame hf) hle⟩

theorem IdsBelow.sublist {next : Nat} {frames frames' : List (Nat × Bytes)}
    (h : IdsBelow next frames) (hsub : frames'.Sublist frames) : IdsBelow next frames' :=
  ⟨h.increasing.sublist (hsub.map Prod.fst), fun frame hf => h.below frame (hsub.subset hf)⟩

theorem IdsBelow.drop {next : Nat} {frames : List (Nat × Bytes)} (h : IdsBelow next frames)
    (k : Nat) : IdsBelow next (frames.drop k) :=
  h.sublist (List.drop_sublist k frames)

theorem IdsBelow.snoc {next : Nat} {frames : List (Nat × Bytes)} (h : IdsBelow next frames)
    (bytes : Bytes) : IdsBelow (next + 1) (frames ++ [(next, bytes)]) := by
  constructor
  · rw [List.map_append, List.map_singleton]
    refine List.pairwise_append.mpr ⟨h.increasing, List.pairwise_singleton .., ?_⟩
    intro id hid id' hid'
    obtain ⟨frame, hframe, rfl⟩ := List.mem_map.mp hid
    rw [List.mem_singleton.mp hid']
    exact h.below frame hframe
  · intro frame hframe
    rcases List.mem_append.mp hframe with hold | hnew
    · exact Nat.lt_succ_of_lt (h.below frame hold)
    · rw [List.mem_singleton.mp hnew]
      exact Nat.lt_succ_self next

/-- The first frame has the lowest id. -/
theorem IdsBelow.head_le {next : Nat} {first frame : Nat × Bytes} {frames : List (Nat × Bytes)}
    (h : IdsBelow next (first :: frames)) (hframe : frame ∈ first :: frames) :
    first.1 ≤ frame.1 := by
  rcases List.mem_cons.mp hframe with rfl | htail
  · exact Nat.le_refl _
  · have hlt := List.rel_of_pairwise_cons h.increasing (List.mem_map_of_mem htail)
    exact Nat.le_of_lt hlt

/-- The frame of `send_data` has the next id, if it can be built. -/
theorem candidates_sendData [Wal σ] (crates : Crates) (peer : Peer) (m : ReliabilityManager σ)
    (myNodeId : UInt64) (payload : Bytes) :
    SendOp.candidates crates peer m (.sendData myNodeId payload) = [] ∨
    ∃ bytes, buildData crates peer myNodeId (m.sendState peer).nextMsgId payload = .ok bytes ∧
      SendOp.candidates crates peer m (.sendData myNodeId payload)
        = [((m.sendState peer).nextMsgId, bytes)] := by
  have hcand : SendOp.candidates crates peer m (.sendData myNodeId payload)
      = ((m.sendAppends crates peer myNodeId payload).map entryFrame).toList := rfl
  rw [hcand]
  unfold sendAppends
  cases buildData crates peer myNodeId (m.sendState peer).nextMsgId payload with
  | error e => exact Or.inl rfl
  | ok bytes => exact Or.inr ⟨bytes, rfl, rfl⟩

/-- A list in order stays so with the frame of `send_data` at its end. -/
theorem IdsBelow.append_candidates [Wal σ] {peer : Peer} {m : ReliabilityManager σ}
    {frames : List (Nat × Bytes)} (h : IdsBelow (m.sendState peer).nextMsgId frames)
    (crates : Crates) (myNodeId : UInt64) (payload : Bytes) :
    IdsBelow ((m.sendState peer).nextMsgId + 1)
      (frames ++ SendOp.candidates crates peer m (.sendData myNodeId payload)) := by
  rcases candidates_sendData crates peer m myNodeId payload with hnone | ⟨bytes, -, hone⟩
  · rw [hnone, List.append_nil]
    exact h.mono (Nat.le_succ _)
  · rw [hone]
    exact h.snoc bytes

/-- The queue of a send state: increasing ids, below the next one. -/
def QueueOk (s : SendState) : Prop := IdsBelow s.nextMsgId s.pendingFrames

/-- **Each operation** keeps the queue in order. -/
theorem QueueOk.after [Wal σ] {peer : Peer} {m : ReliabilityManager σ}
    (h : QueueOk (m.sendState peer)) (crates : Crates) (op : SendOp) :
    QueueOk (op.after crates peer m) := by
  cases op with
  | sendData myNodeId payload =>
    have hall := IdsBelow.append_candidates h crates myNodeId payload
    have hqueue := h.mono (Nat.le_succ _)
    -- the new frame joins the queue or does not
    rcases candidates_sendData crates peer m myNodeId payload with hnone | ⟨bytes, -, hone⟩
    · show IdsBelow _ (_ ++ List.drop _ (SendOp.candidates crates peer m _))
      rw [hnone, List.drop_nil, List.append_nil]
      exact hqueue
    · show IdsBelow _ (_ ++ List.drop _ (SendOp.candidates crates peer m _))
      rw [hone] at hall ⊢
      cases (SendOp.writes crates peer m (.sendData myNodeId payload)).length with
      | zero => exact hall
      | succ n =>
        rw [List.drop_succ_cons, List.drop_nil, List.append_nil]
        exact hqueue
  | processAckFrame ack => exact h.drop _
  | handleResume resume => exact h

/-- A run of operations on a fresh manager, on a connection that takes every write. -/
abbrev runOf [Wal σ] (crates : Crates) (peer : Peer) (m : ReliabilityManager σ)
    (ops : List SendOp) : SenderRun σ :=
  ops.foldl (SenderRun.step crates peer) (.start m)

/-- A run whose frames are on the connection and whose queue is in order. -/
structure Queued [Wal σ] (peer : Peer) (r : SenderRun σ) : Prop where
  tied : r.Tied
  queue : QueueOk (r.state peer)

theorem Queued.step [Wal σ] {crates : Crates} {peer : Peer} {r : SenderRun σ} (h : Queued peer r)
    (op : SendOp) : Queued peer (r.step crates peer op) := by
  obtain ⟨htied, hstate⟩ := h.tied.step crates peer op
  exact ⟨htied, by rw [hstate]; exact h.queue.after crates op⟩

theorem queueOk_new [Wal σ] (peer : Peer) (storage : σ) (ackInterval : Nat)
    (ackBatchSize defaultRecvWindow : UInt32) :
    QueueOk ((ReliabilityManager.new storage ackInterval ackBatchSize defaultRecvWindow).sendState
      peer) :=
  idsBelow_nil (SendState.nextMsgId _)

theorem queued_start [Wal σ] (peer : Peer) (storage : σ) (ackInterval : Nat)
    (ackBatchSize defaultRecvWindow : UInt32) :
    Queued peer (.start (.new storage ackInterval ackBatchSize defaultRecvWindow)) :=
  ⟨SenderRun.start_tied _, queueOk_new peer storage ackInterval ackBatchSize defaultRecvWindow⟩

/-- **In every run** on a fresh manager the queue is in order. -/
theorem queue_ok [Wal σ] (crates : Crates) (peer : Peer) (storage : σ) (ackInterval : Nat)
    (ackBatchSize defaultRecvWindow : UInt32) (ops : List SendOp) :
    Queued peer (runOf crates peer (.new storage ackInterval ackBatchSize defaultRecvWindow)
      ops) :=
  List.foldlRecOn ops _ (queued_start peer storage ackInterval ackBatchSize defaultRecvWindow)
    fun _ h op _ => h.step op

/-! ## Order -/

/-- The operation is `send_data` with nothing waiting or with a frame the credits
do not cover, or it is `process_ack_frame`. -/
def NoOvertaking [Wal σ] (crates : Crates) (peer : Peer) (r : SenderRun σ) : SendOp → Prop
  | .sendData myNodeId payload =>
    (r.state peer).pendingFrames = [] ∨
      ∀ bytes, buildData crates peer myNodeId (r.state peer).nextMsgId payload = .ok bytes →
        (r.state peer).creditsBytes < bytes.length
  | .processAckFrame _ => True
  | .handleResume _ => False

/-- What was written and what is waiting are in order, one after the other. -/
structure InOrder [Wal σ] (peer : Peer) (r : SenderRun σ) : Prop where
  tied : r.Tied
  ordered : IdsBelow (r.state peer).nextMsgId (r.frames ++ (r.state peer).pendingFrames)

/-- **One operation** without overtaking keeps the order. -/
theorem InOrder.step [Wal σ] {crates : Crates} {peer : Peer} {r : SenderRun σ} {op : SendOp}
    (h : InOrder peer r) (hop : NoOvertaking crates peer r op) :
    InOrder peer (r.step crates peer op) := by
  obtain ⟨htied, hstate⟩ := h.tied.step crates peer op
  refine ⟨htied, ?_⟩
  rw [hstate, SenderRun.step_frames]
  cases op with
  | sendData myNodeId payload =>
    have hall := h.ordered.append_candidates crates myNodeId payload
    show IdsBelow _ ((r.frames ++ _) ++ (_ ++ List.drop _ _))
    rcases hop with hnone | hshort
    · -- nothing waits: the frame is written or is the only one to wait
      have hsplit := covered_append_drop frameLen
        (SendOp.balance (r.state peer) (.sendData myNodeId payload))
        (SendOp.candidates crates peer r.manager (.sendData myNodeId payload))
      rw [hnone, List.append_nil] at hall
      rw [hnone, List.nil_append, List.append_assoc]
      rw [← hsplit] at hall
      exact hall
    · -- the frame joins the queue
      have hwrites : SendOp.writes crates peer r.manager (.sendData myNodeId payload) = [] := by
        unfold SendOp.writes
        rcases candidates_sendData crates peer r.manager myNodeId payload with
          hnone | ⟨bytes, hbuild, hone⟩
        · rw [hnone]
          rfl
        · rw [hone]
          exact (covered_cons_eq_nil_iff frameLen).mpr (hshort bytes hbuild)
      rw [hwrites, List.append_nil, ← List.append_assoc]
      exact hall
  | processAckFrame ack =>
    -- what is written comes off the front of the queue
    have hsplit := covered_append_drop frameLen
      (SendOp.balance (r.state peer) (.processAckFrame ack)) (r.state peer).pendingFrames
    have hordered := h.ordered
    rw [← hsplit, ← List.append_assoc] at hordered
    exact hordered
  | handleResume resume => exact absurd hop id

/-- **DATA frames leave in order if none overtakes.** On a connection of a manager
that was fresh and has done any operations for the peer before, and which takes
every write, the frames that a sequence of `send_data` and `process_ack_frame`
writes have strictly increasing ids, if `send_data` is never called with frames
waiting and credits for its own. The frames of the run are the ones on the
connection. -/
theorem frames_in_order [Wal σ] (crates : Crates) (peer : Peer) (storage : σ) (ackInterval : Nat)
    (ackBatchSize defaultRecvWindow : UInt32) (before ops : List SendOp) :
    let m := (runOf crates peer (.new storage ackInterval ackBatchSize defaultRecvWindow)
      before).manager
    Along (SenderRun.step crates peer) (NoOvertaking crates peer) (.start m) ops →
      (((runOf crates peer m ops).frames.map Prod.fst).Pairwise (· < ·) ∧
        (runOf crates peer m ops).writer.written
          = (runOf crates peer m ops).frames.map Prod.snd) := by
  intro m hops
  have hstart : InOrder peer (SenderRun.start m) :=
    ⟨SenderRun.start_tied m, (queue_ok crates peer storage ackInterval ackBatchSize
      defaultRecvWindow before).queue⟩
  have hend := hops.inv (I := InOrder peer) (fun r op h hop => h.step hop) hstart
  refine ⟨?_, hend.tied.written⟩
  have hincreasing := hend.ordered.increasing
  rw [List.map_append] at hincreasing
  exact (List.pairwise_append.mp hincreasing).1

/-- A manager with a window of 1000 bytes, on empty storage. -/
def freshManager : ReliabilityManager MemoryStorage := .new (.new 8) 0 1 1000

/-- A message waits for credits, and is written with the first ACK. -/
theorem frames_in_order_queued :
    let ops : List SendOp := [.sendData 1 [7], .processAckFrame ⟨0, 1000⟩, .sendData 1 [8]]
    (((runOf .standard 2 freshManager ops).frames.map Prod.fst).Pairwise (· < ·) ∧
      (runOf .standard 2 freshManager ops).writer.written
        = (runOf .standard 2 freshManager ops).frames.map Prod.snd) ∧
    (runOf .standard 2 freshManager ops).frames.map Prod.fst = [1, 2] := by
  intro ops
  have hops : Along (SenderRun.step .standard 2) (NoOvertaking .standard 2) (.start freshManager)
      ops := ⟨Or.inl rfl, trivial, Or.inl (by decide +kernel), trivial⟩
  exact ⟨frames_in_order .standard 2 (MemoryStorage.new 8) 0 1 1000 [] ops hops,
    by decide +kernel⟩

/-- The first frame is 149 bytes long and waits. The second is 89 bytes long, the
ACK between them grants 100, and the second frame goes first. -/
theorem frames_out_of_order :
    let ops : List SendOp := [.sendData 1 (List.replicate 60 0), .processAckFrame ⟨0, 100⟩,
      .sendData 1 [], .processAckFrame ⟨0, 1000⟩]
    (runOf .standard 2 freshManager ops).frames.map Prod.fst = [2, 1] ∧
    ¬ ((runOf .standard 2 freshManager ops).frames.map Prod.fst).Pairwise (· < ·) := by
  decide +kernel

/-! ## Acknowledged frames

Here a connection can fail at any write. A failed drain leaves the frames it wrote
in the queue, so calls are followed one by one, each with what its connection still
takes. -/

/-- A call of an operation, and how many more writes its connection takes: any
number, if there is none here. -/
structure SenderCall where
  op : SendOp
  remaining : Option Nat

namespace SenderCall

/-- The call made on a manager. -/
def run [Wal σ] (crates : Crates) (peer : Peer) (m : ReliabilityManager σ) (c : SenderCall) :
    Except ReliabilityError Unit × ReliabilityManager σ × Writer :=
  c.op.run crates peer m { written := [], remaining := c.remaining }

/-- The manager after the call. -/
def step [Wal σ] (crates : Crates) (peer : Peer) (m : ReliabilityManager σ) (c : SenderCall) :
    ReliabilityManager σ :=
  (c.run crates peer m).2.1

end SenderCall

/-- What of a list of frames a connection takes. -/
def taken {α : Type} (remaining : Option Nat) (frames : List α) : List α :=
  match remaining with
  | none => frames
  | some n => frames.take n

theorem taken_isPrefix {α : Type} (remaining : Option Nat) (frames : List α) :
    taken remaining frames <+: frames := by
  cases remaining with
  | none => exact List.prefix_refl _
  | some n => exact List.take_prefix n frames

/-- The loop over the queue writes the frames that are covered, as far as the
connection takes them. -/
theorem drainPending_written (i : Nat) (pending : List (Nat × Bytes)) (credits : Int)
    (sent : List Nat) (w : Writer) :
    (drainPending i pending credits sent w).2.2.written
      = w.written ++ (taken w.remaining (covered frameLen credits pending)).map Prod.snd := by
  induction pending generalizing i credits sent w with
  | nil =>
    unfold drainPending covered taken
    cases w.remaining <;> simp
  | cons frame pending ih =>
    unfold drainPending covered
    split
    next hge =>
      unfold Writer.writeAll
      cases hw : w.remaining with
      | none =>
        dsimp only
        rw [ih, List.append_assoc]
        rfl
      | some n =>
        cases n with
        | zero => exact (List.append_nil _).symm
        | succ n =>
          dsimp only
          rw [ih, List.append_assoc]
          rfl
    next hlt =>
      unfold taken
      cases w.remaining <;> simp

/-- The frames `process_ack_frame` writes: as many as are on the connection, from
the front of the queue. -/
def ackFrames [Wal σ] (peer : Peer) (m : ReliabilityManager σ) (ack : AckMeta)
    (remaining : Option Nat) : List (Nat × Bytes) :=
  (m.sendState peer).pendingFrames.take
    (m.processAckFrame peer ack { written := [], remaining }).2.2.written.length

theorem processAckFrame_written [Wal σ] (m : ReliabilityManager σ) (peer : Peer) (ack : AckMeta)
    (w : Writer) :
    (m.processAckFrame peer ack w).2.2.written = w.written ++
      (taken w.remaining
        (covered frameLen ack.credits.toNat (m.sendState peer).pendingFrames)).map Prod.snd := by
  have hstate : (m.initSendState peer).1 = m.sendState peer := rfl
  have hdrain := drainPending_written 0 (m.sendState peer).pendingFrames ack.credits.toNat [] w
  unfold processAckFrame
  dsimp only
  rw [recordAck_fst, hstate]
  dsimp only
  rcases hout : drainPending 0 (m.sendState peer).pendingFrames ack.credits.toNat [] w
    with ⟨result, credits, w'⟩
  rw [hout] at hdrain
  cases result with
  | error e => exact hdrain
  | ok sent => exact hdrain

/-- The frames on the connection are frames of the queue. -/
theorem ackFrames_eq [Wal σ] (peer : Peer) (m : ReliabilityManager σ) (ack : AckMeta)
    (remaining : Option Nat) :
    ackFrames peer m ack remaining
        = taken remaining
          (covered frameLen ack.credits.toNat (m.sendState peer).pendingFrames) ∧
      (m.processAckFrame peer ack { written := [], remaining }).2.2.written
        = (ackFrames peer m ack remaining).map Prod.snd := by
  have hwritten := processAckFrame_written m peer ack { written := [], remaining }
  rw [List.nil_append] at hwritten
  have hqueue := (taken_isPrefix remaining _).trans
    (covered_isPrefix frameLen ack.credits.toNat (m.sendState peer).pendingFrames)
  have hframes : ackFrames peer m ack remaining = taken remaining
      (covered frameLen ack.credits.toNat (m.sendState peer).pendingFrames) := by
    unfold ackFrames
    rw [hwritten, List.length_map]
    exact (List.prefix_iff_eq_take.mp hqueue).symm
  exact ⟨hframes, by rw [hframes]; exact hwritten⟩

/-- The queue after `send_data`: at most the frame with the next id is new. -/
theorem sendData_queue [Wal σ] (crates : Crates) (m : ReliabilityManager σ) (peer : Peer)
    (myNodeId : UInt64) (payload : Bytes) (w : Writer) :
    let queue := ((m.sendData crates peer myNodeId payload w).2.1.sendState peer).pendingFrames
    queue = (m.sendState peer).pendingFrames ∨
      ∃ bytes, queue
        = (m.sendState peer).pendingFrames ++ [((m.sendState peer).nextMsgId, bytes)] := by
  have hstate : (m.initSendState peer).1 = m.sendState peer := rfl
  unfold ReliabilityManager.sendData
  dsimp only
  rw [hstate]
  cases buildData crates peer myNodeId (m.sendState peer).nextMsgId payload with
  | error e =>
    dsimp only
    rw [setSend_sendState]
    exact Or.inl rfl
  | ok bytes =>
    dsimp only
    split
    next =>
      rcases w.writeAll bytes with ⟨result, w'⟩
      cases result with
      | error e =>
        dsimp only
        rw [setSend_sendState]
        exact Or.inl rfl
      | ok u =>
        dsimp only
        rw [setSend_sendState]
        exact Or.inl rfl
    next =>
      rw [setSend_sendState]
      exact Or.inr ⟨bytes, rfl⟩

theorem foldl_eraseIdx_sublist {α : Type} (indices : List Nat) (frames : List α) :
    (indices.foldl (fun frames i => frames.eraseIdx i) frames).Sublist frames := by
  induction indices generalizing frames with
  | nil => exact List.Sublist.refl _
  | cons i indices ih => exact (ih _).trans (List.eraseIdx_sublist frames i)

/-- `process_ack_frame` takes frames out of the queue, or leaves it. -/
theorem processAckFrame_queue [Wal σ] (m : ReliabilityManager σ) (peer : Peer) (ack : AckMeta)
    (w : Writer) :
    ((m.processAckFrame peer ack w).2.1.sendState peer).pendingFrames.Sublist
      (m.sendState peer).pendingFrames := by
  have hstate : (m.initSendState peer).1 = m.sendState peer := rfl
  unfold processAckFrame
  dsimp only
  rw [recordAck_fst, hstate]
  dsimp only
  rcases drainPending 0 (m.sendState peer).pendingFrames ack.credits.toNat [] w
    with ⟨result, credits, w'⟩
  cases result with
  | error e =>
    dsimp only
    rw [setSend_sendState]
  | ok sent =>
    dsimp only
    rw [setSend_sendState]
    exact foldl_eraseIdx_sublist _ _

/-- `handle_resume` leaves the queue. -/
theorem handleResume_queue [Wal σ] (m : ReliabilityManager σ) (peer : Peer) (resume : ResumeMeta)
    (w : Writer) :
    ((m.handleResume peer resume w).2.1.sendState peer).pendingFrames
      = (m.sendState peer).pendingFrames := by
  rw [handleResume_eq]
  cases Wal.range m.storage peer resume.receiverCumProc none with
  | error e =>
    dsimp only
    rw [setSend_sendState]
  | ok entries =>
    dsimp only
    rw [setSend_sendState]

/-- **Each call** keeps the queue in order, whichever write fails. -/
theorem QueueOk.call [Wal σ] {peer : Peer} {m : ReliabilityManager σ}
    (h : QueueOk (m.sendState peer)) (crates : Crates) (c : SenderCall) :
    QueueOk ((c.step crates peer m).sendState peer) := by
  obtain ⟨op, remaining⟩ := c
  have hqueue : IdsBelow (m.sendState peer).nextMsgId (m.sendState peer).pendingFrames := h
  show IdsBelow (SendState.nextMsgId _) (SendState.pendingFrames _)
  cases op with
  | sendData myNodeId payload =>
    obtain ⟨s, hnext, -, hsent⟩ :=
      sendData_sent crates m peer myNodeId payload { written := [], remaining }
    have hafter := hsent.sendState_eq
    have hframes := sendData_queue crates m peer myNodeId payload { written := [], remaining }
    unfold SenderCall.step SenderCall.run SendOp.run
    rw [hafter] at hframes ⊢
    rw [hnext]
    rcases hframes with hsame | ⟨bytes, hone⟩
    · rw [hsame]
      exact hqueue.mono (Nat.le_succ _)
    · rw [hone]
      exact hqueue.snoc bytes
  | processAckFrame ack =>
    obtain ⟨s, hnext, -, hsent⟩ := processAckFrame_sent m peer ack { written := [], remaining }
    have hafter := hsent.sendState_eq
    have hframes := processAckFrame_queue m peer ack { written := [], remaining }
    unfold SenderCall.step SenderCall.run SendOp.run
    rw [hafter] at hframes ⊢
    rw [hnext]
    exact hqueue.sublist hframes
  | handleResume resume =>
    obtain ⟨s, hnext, -, hsent⟩ := handleResume_sent m peer resume { written := [], remaining }
    have hafter := hsent.sendState_eq
    have hframes := handleResume_queue m peer resume { written := [], remaining }
    unfold SenderCall.step SenderCall.run SendOp.run
    rw [hafter] at hframes ⊢
    rw [hnext, hframes]
    exact hqueue

/-- No frame that `process_ack_frame` writes is acknowledged when it does. -/
def AckWritesNew [Wal σ] (crates : Crates) (peer : Peer) (m : ReliabilityManager σ)
    (c : SenderCall) : Prop :=
  match c.op with
  | .processAckFrame ack => ∀ frame ∈ ackFrames peer m ack c.remaining,
      ((c.step crates peer m).sendState peer).cumAcked < frame.1
  | .sendData .. => True
  | .handleResume .. => True

instance [Wal σ] (crates : Crates) (peer : Peer) (m : ReliabilityManager σ) (c : SenderCall) :
    Decidable (AckWritesNew crates peer m c) :=
  match c with
  | ⟨.processAckFrame ack, remaining⟩ => inferInstanceAs
      (Decidable (∀ frame ∈ ackFrames peer m ack remaining,
        ((SenderCall.step crates peer m ⟨.processAckFrame ack, remaining⟩).sendState peer).cumAcked
          < frame.1))
  | ⟨.sendData .., _⟩ => isTrue trivial
  | ⟨.handleResume .., _⟩ => isTrue trivial

/-- An ACK finds nothing waiting, or first a frame that neither it nor an earlier
one acknowledges, or one that its credits do not cover, or a connection that takes
no write. -/
def FirstIsNew [Wal σ] (peer : Peer) (m : ReliabilityManager σ) (c : SenderCall) : Prop :=
  match c.op with
  | .processAckFrame ack =>
    match (m.sendState peer).pendingFrames with
    | [] => True
    | (msgId, bytes) :: _ =>
      max (m.sendState peer).cumAcked ack.cumAck < msgId ∨ ack.credits.toNat < bytes.length ∨
        c.remaining = some 0
  | .sendData .. => True
  | .handleResume .. => True

/-- The first frame of a queue is written if the credits and the connection allow
one frame. -/
theorem first_mem_taken {credits : Nat} {first : Nat × Bytes} {rest : List (Nat × Bytes)}
    {remaining : Option Nat} (hcredits : first.2.length ≤ credits) (hone : remaining ≠ some 0) :
    first ∈ taken remaining (covered frameLen credits (first :: rest)) := by
  have hle : (frameLen first : Int) ≤ credits := Int.ofNat_le.mpr hcredits
  unfold covered
  rw [if_pos hle]
  cases remaining with
  | none => exact List.mem_cons_self ..
  | some n =>
    cases n with
    | zero => exact absurd rfl hone
    | succ n => exact List.mem_cons_self ..

/-- **One call**: the first frame decides. -/
theorem ackWritesNew_iff [Wal σ] {crates : Crates} {peer : Peer} {m : ReliabilityManager σ}
    (h : QueueOk (m.sendState peer)) (c : SenderCall) :
    AckWritesNew crates peer m c ↔ FirstIsNew peer m c := by
  obtain ⟨op, remaining⟩ := c
  cases op with
  | sendData myNodeId payload => exact Iff.rfl
  | handleResume resume => exact Iff.rfl
  | processAckFrame ack =>
    obtain ⟨s, -, hacked, hsent⟩ := processAckFrame_sent m peer ack { written := [], remaining }
    have hafter := hsent.sendState_eq
    have hqueue : IdsBelow _ (m.sendState peer).pendingFrames := h
    show (∀ frame ∈ ackFrames peer m ack remaining, SendState.cumAcked (ReliabilityManager.sendState
      (m.processAckFrame peer ack { written := [], remaining }).2.1 peer) < frame.1) ↔ _
    rw [hafter, hacked, (ackFrames_eq peer m ack remaining).1]
    unfold FirstIsNew
    dsimp only
    cases hpending : (m.sendState peer).pendingFrames with
    | nil =>
      refine ⟨fun _ => trivial, fun _ frame hf => ?_⟩
      exact absurd ((taken_isPrefix remaining _).subset hf) List.not_mem_nil
    | cons first rest =>
      dsimp only
      rw [hpending] at hqueue
      constructor
      · intro hnew
        by_cases hcredits : ack.credits.toNat < first.2.length
        · exact Or.inr (Or.inl hcredits)
        · by_cases hnone : remaining = some 0
          · exact Or.inr (Or.inr hnone)
          · -- the first frame is written
            exact Or.inl (hnew first (first_mem_taken (Nat.le_of_not_lt hcredits) hnone))
      · rintro (hnew | hcredits | hnone) frame hframe
        · have hmem := (covered_isPrefix frameLen _ _).subset
            ((taken_isPrefix remaining _).subset hframe)
          exact Nat.lt_of_lt_of_le hnew (hqueue.head_le hmem)
        · have hlt : (ack.credits.toNat : Int) < frameLen first := Int.ofNat_lt.mpr hcredits
          rw [(covered_cons_eq_nil_iff frameLen).mpr hlt] at hframe
          exact absurd ((taken_isPrefix remaining _).subset hframe) List.not_mem_nil
        · rw [hnone] at hframe
          exact absurd hframe List.not_mem_nil

/-- **Acknowledged frames are not written again exactly if the first one waiting
is not acknowledged.** In a run of the three operations on a fresh manager, on any
storage and with any watermarks, each on a connection that may fail at any write,
no frame that `process_ack_frame` writes has an id at or below `cum_acked` if and
only if each ACK finds nothing waiting, or first a frame beyond all it has been
told is acknowledged, or one too long for its credits, or a connection that takes
no write. -/
theorem ack_writes_new_iff [Wal σ] (crates : Crates) (peer : Peer) (storage : σ)
    (ackInterval : Nat) (ackBatchSize defaultRecvWindow : UInt32) (calls : List SenderCall) :
    let start := ReliabilityManager.new storage ackInterval ackBatchSize defaultRecvWindow
    Along (SenderCall.step crates peer) (AckWritesNew crates peer) start calls ↔
      Along (SenderCall.step crates peer) (FirstIsNew peer) start calls := by
  intro start
  exact along_iff (I := fun m => QueueOk (m.sendState peer)) (G := fun _ _ => True)
    (fun _ c h _ => h.call crates c) (fun _ c h _ => ackWritesNew_iff h c)
    (queueOk_new peer storage ackInterval ackBatchSize defaultRecvWindow)
    (along_of_forall (fun _ _ => trivial) _ _)

/-- The only frame waits. A RESUME with 100 bytes of credits has it written from
the log, and leaves it in the queue. The ACK of it then has it written again. No
write fails. -/
theorem ack_writes_acknowledged :
    let calls : List SenderCall := [⟨.sendData 1 [7], none⟩,
      ⟨.handleResume ⟨true, 0, 0, some 100⟩, none⟩, ⟨.processAckFrame ⟨1, 1000⟩, none⟩]
    let waiting := (calls.take 2).foldl (SenderCall.step .standard 2) freshManager
    (ackFrames 2 waiting ⟨1, 1000⟩ none).map Prod.fst = [1] ∧
    ((waiting.processAckFrame 2 ⟨1, 1000⟩ ⟨[], none⟩).2.1.sendState 2).cumAcked = 1 ∧
    ¬ Along (SenderCall.step .standard 2) (AckWritesNew .standard 2) freshManager calls := by
  decide +kernel

/-! ## RESUME -/

/-- The log entries of a peer above an id, as `range` gives them. -/
def entriesAbove [Wal σ] (storage : σ) (peer : Peer) (fromExclusive : Nat) : List WalEntry :=
  match Wal.range storage peer fromExclusive none with
  | .ok entries => entries
  | .error _ => []

/-- In memory these are the entries of the peer with a higher id. -/
theorem entriesAbove_memory (storage : MemoryStorage) (peer : Peer) (fromExclusive : Nat) :
    entriesAbove storage peer fromExclusive
      = (storage.wal.entriesOf peer).filter fun e => e.msgId > fromExclusive :=
  MemoryWal.collect_none fromExclusive (storage.wal.entriesOf peer) []

/-- What the entries up to and with position `i` are long together. -/
def lengthThrough (entries : List WalEntry) (i : Nat) : Nat :=
  total (fun e => e.bytes.length) (entries.take (i + 1))

/-- **What `handle_resume` writes** when it returns `Ok`: each entry that the
credits cover together with the entries before it. -/
theorem handleResume_ok [Wal σ] {m : ReliabilityManager σ} {peer : Peer} {resume : ResumeMeta}
    {w : Writer} (h : (m.handleResume peer resume w).1 = .ok ()) :
    (((m.handleResume peer resume w).2.1).sendState peer).pendingFrames
      = (m.sendState peer).pendingFrames ∧
    ∀ bytes, bytes ∈ (m.handleResume peer resume w).2.2.written.drop w.written.length ↔
      ∃ i entry, (entriesAbove m.storage peer resume.receiverCumProc)[i]? = some entry ∧
        entry.bytes = bytes ∧
        (lengthThrough (entriesAbove m.storage peer resume.receiverCumProc) i : Int)
          ≤ resume.balance (m.sendState peer) := by
  rw [handleResume_eq] at h ⊢
  unfold entriesAbove
  dsimp only at h ⊢
  cases hrange : Wal.range m.storage peer resume.receiverCumProc none with
  | error e =>
    rw [hrange] at h
    cases h
  | ok entries =>
    rw [hrange] at h
    dsimp only at h ⊢
    rcases hloop : retransmit entries (resume.balance (m.sendState peer)) w
      with ⟨result, credits, w'⟩
    rw [hloop] at h
    cases h
    obtain ⟨-, hwritten, -⟩ := retransmit_ok hloop
    refine ⟨by rw [setSend_sendState], fun bytes => ?_⟩
    dsimp only
    rw [hwritten, List.drop_left, List.mem_map]
    have hlength : ∀ i, total frameLen ((entries.map entryFrame).take (i + 1))
        = lengthThrough entries i := by
      intro i
      rw [← List.map_take]
      exact total_map ..
    constructor
    · rintro ⟨frame, hframe, rfl⟩
      obtain ⟨i, hget, hle⟩ := (mem_covered_iff frameLen).mp hframe
      rw [List.getElem?_map, Option.map_eq_some_iff] at hget
      obtain ⟨entry, hentry, rfl⟩ := hget
      exact ⟨i, entry, hentry, rfl, by rw [← hlength]; exact hle⟩
    · rintro ⟨i, entry, hentry, rfl, hle⟩
      refine ⟨entryFrame entry, (mem_covered_iff frameLen).mpr ⟨i, ?_, ?_⟩, rfl⟩
      · rw [List.getElem?_map, hentry]
        rfl
      · rw [hlength]
        exact hle

/-- **RESUME strands nothing exactly if what does not wait already is covered**:
when `handle_resume` returns `Ok`, each log entry above the receiver's watermark
was written or is in the queue, if and only if each of them that was not queued
before is covered by the credits, together with the entries before it. -/
theorem resume_strands_nothing_iff [Wal σ] (m : ReliabilityManager σ) (peer : Peer)
    (resume : ResumeMeta) (w : Writer) (h : (m.handleResume peer resume w).1 = .ok ()) :
    let entries := entriesAbove m.storage peer resume.receiverCumProc
    let out := m.handleResume peer resume w
    (∀ entry ∈ entries, entry.bytes ∈ out.2.2.written.drop w.written.length ∨
      (entry.msgId, entry.bytes) ∈ (out.2.1.sendState peer).pendingFrames) ↔
    ∀ entry ∈ entries, (entry.msgId, entry.bytes) ∉ (m.sendState peer).pendingFrames →
      ∃ i entry', entries[i]? = some entry' ∧ entry'.bytes = entry.bytes ∧
        (lengthThrough entries i : Int) ≤ resume.balance (m.sendState peer) := by
  intro entries out
  obtain ⟨hpending, hwritten⟩ := handleResume_ok h
  refine forall₂_congr fun entry _ => ?_
  rw [hpending, hwritten, ← or_iff_not_imp_right]

/-- Two frames of 90 bytes were written on a connection that is gone. -/
def reconnecting : ReliabilityManager MemoryStorage :=
  (runOf .standard 2 freshManager
    [.processAckFrame ⟨0, 1000⟩, .sendData 1 [7], .sendData 1 [8]]).manager

/-- 200 bytes of credits cover both. -/
theorem resume_strands_nothing_covered :
    let out := reconnecting.handleResume 2 ⟨true, 0, 0, some 200⟩ ⟨[], none⟩
    (entriesAbove reconnecting.storage 2 0).map WalEntry.msgId = [1, 2] ∧
    ∀ entry ∈ entriesAbove reconnecting.storage 2 0,
      entry.bytes ∈ out.2.2.written.drop 0 ∨
        (entry.msgId, entry.bytes) ∈ (out.2.1.sendState 2).pendingFrames := by
  intro out
  have hids : (entriesAbove reconnecting.storage 2 0).map WalEntry.msgId = [1, 2] := by
    decide +kernel
  refine ⟨hids, (resume_strands_nothing_iff reconnecting 2 ⟨true, 0, 0, some 200⟩ ⟨[], none⟩
    (by decide +kernel)).mpr fun entry hentry _ => ?_⟩
  obtain ⟨i, hi, rfl⟩ := List.mem_iff_getElem.mp hentry
  refine ⟨i, _, List.getElem?_eq_getElem hi, rfl, ?_⟩
  have hlen : i < 2 := by
    have hcount := congrArg List.length hids
    rw [List.length_map] at hcount
    exact Nat.lt_of_lt_of_eq hi hcount
  have hcovered : ∀ i < 2,
      (lengthThrough (entriesAbove reconnecting.storage 2 0) i : Int) ≤ 200 := by
    decide +kernel
  exact hcovered i hlen

/-- 100 bytes cover the first. The second is not written, and is not waiting. -/
theorem resume_strands_second :
    let out := reconnecting.handleResume 2 ⟨true, 0, 0, some 100⟩ ⟨[], none⟩
    out.1 = .ok () ∧ (out.2.1.sendState 2).pendingFrames = [] ∧
    ¬ ∀ entry ∈ entriesAbove reconnecting.storage 2 0,
      entry.bytes ∈ out.2.2.written.drop 0 ∨
        (entry.msgId, entry.bytes) ∈ (out.2.1.sendState 2).pendingFrames := by
  decide +kernel

end MeshCore.Session
