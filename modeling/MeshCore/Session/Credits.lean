import MeshCore.Lib.Budget
import MeshCore.Lib.Runs
import MeshCore.Session.Reliability

/-!
# Credits, the queue and what is written

`send_data`, `process_ack_frame` and `handle_resume` share one balance,
`credits_bytes`, and each has its own loop that writes frames against it. On a
connection that takes every write the three do the same thing: an optional
assignment of the balance, and then a run of frames from the front of a list as
far as the balance reaches. `writes` says which frames those are, with their ids,
and `after` which send state is left; `run_spec` shows that the operations of
`ReliabilityManager` do exactly this.

`SenderRun` is a run of such operations for one peer, with what the results speak
of and the code does not keep: the frames written so far with their ids, and the
value last assigned to the balance. The balance accounts for every byte
(`credits_account_for_writes`).

Mirroring notes:
- The frames written appear twice, as the bytes on the connection and as pairs
  with the id the code logs beside each write. `writer_written` ties the two.
- A failing `range` makes `handle_resume` return after the credits were set and
  before any frame. It is the case of no entries here.
-/

namespace MeshCore.Session

open MeshCore.Lib MeshCore.Wire MeshCore.Storage

/-- The balance a RESUME leaves to retransmit with. -/
def ResumeMeta.balance (resume : ResumeMeta) (s : SendState) : Int :=
  (resume.startingCredits.map fun credits => (credits.toNat : Int)).getD s.creditsBytes

namespace ReliabilityManager

variable {σ : Type}

/-! ## The loops -/

/-- The length of a queued frame. -/
abbrev frameLen (frame : Nat × Bytes) : Nat := frame.2.length

/-- A log entry as a frame with its id. -/
abbrev entryFrame (entry : WalEntry) : Nat × Bytes := (entry.msgId, entry.bytes)

theorem writeAll_infallible {w : Writer} (hw : w.remaining = none) (bytes : Bytes) :
    w.writeAll bytes = (.ok (), { w with written := w.written ++ [bytes] }) := by
  unfold Writer.writeAll
  rw [hw]

/-- The loop over the queue, when no write fails. -/
theorem drainPending_eq (i : Nat) (pending : List (Nat × Bytes)) (credits : Int) (sent : List Nat)
    {w : Writer} (hw : w.remaining = none) :
    drainPending i pending credits sent w
      = (.ok (sent ++ List.range' i (covered frameLen credits pending).length),
         credits - total frameLen (covered frameLen credits pending),
         { w with written := w.written ++ (covered frameLen credits pending).map Prod.snd }) := by
  induction pending generalizing i credits sent w with
  | nil =>
    unfold drainPending covered
    simp
  | cons frame pending ih =>
    unfold drainPending covered
    split
    next hge =>
      rw [writeAll_infallible hw]
      dsimp only
      have hrest := ih (i + 1) (credits - frame.2.length) (sent ++ [i])
        (w := { w with written := w.written ++ [frame.2] }) hw
      have hlen : frameLen frame = frame.2.length := rfl
      rw [hrest, hlen]
      simp only [total_cons, List.length_cons, List.range'_succ, List.map_cons, List.append_assoc,
        List.singleton_append, Prod.mk.injEq, true_and, and_true]
      omega
    next hlt => simp

/-- The loop over the log, when it returns `Ok`: whether or not a later write
would fail, the frames it wrote are the ones the credits cover. -/
theorem retransmit_ok {entries : List WalEntry} {credits credits' : Int} {w w' : Writer}
    (h : retransmit entries credits w = (.ok (), credits', w')) :
    credits' = credits - total frameLen (covered frameLen credits (entries.map entryFrame)) ∧
      w'.written = w.written ++ (covered frameLen credits (entries.map entryFrame)).map Prod.snd ∧
      (w.remaining = none → w'.remaining = none) := by
  induction entries generalizing credits w with
  | nil =>
    unfold retransmit at h
    cases h
    exact ⟨by simp [covered], by simp [covered], id⟩
  | cons entry entries ih =>
    unfold retransmit at h
    rw [List.map_cons]
    unfold covered
    by_cases hge : credits ≥ entry.bytes.length
    · rw [if_pos hge] at h
      rw [if_pos (show credits ≥ (frameLen (entryFrame entry) : Int) from hge)]
      cases hwrite : w.writeAll entry.bytes with
      | mk result w₁ =>
        rw [hwrite] at h
        cases result with
        | error e =>
          cases h
        | ok u =>
          obtain ⟨hcredits, hwritten, hremaining⟩ := ih h
          -- a write that succeeds appends the frame and leaves an infallible writer one
          have hw₁ : w₁.written = w.written ++ [entry.bytes] ∧
              (w.remaining = none → w₁.remaining = none) := by
            unfold Writer.writeAll at hwrite
            split at hwrite
            · cases hwrite
            · cases hwrite
              exact ⟨rfl, fun hn => by simp_all⟩
            · cases hwrite
              exact ⟨rfl, id⟩
          refine ⟨?_, ?_, fun hn => hremaining (hw₁.2 hn)⟩
          · have hlen : frameLen (entryFrame entry) = entry.bytes.length := rfl
            rw [hcredits, total_cons, hlen]
            omega
          · rw [hwritten, hw₁.1, List.map_cons, List.append_assoc, List.singleton_append]
    · rw [if_neg hge] at h
      rw [if_neg (show ¬ credits ≥ (frameLen (entryFrame entry) : Int) from hge)]
      cases h
      exact ⟨by simp, by simp, id⟩

/-- Without failing writes the loop returns `Ok`. -/
theorem retransmit_isOk (entries : List WalEntry) (credits : Int) {w : Writer}
    (hw : w.remaining = none) :
    ∃ credits' w', retransmit entries credits w = (.ok (), credits', w') := by
  induction entries generalizing credits w with
  | nil => exact ⟨_, _, rfl⟩
  | cons entry entries ih =>
    unfold retransmit
    split
    · rw [writeAll_infallible hw]
      exact ih _ hw
    · exact ⟨_, _, rfl⟩

/-! ## The three operations -/

/-- What an ACK does to the watermark is not seen in the rest of the state. -/
theorem recordAck_fst [Wal σ] (m : ReliabilityManager σ) (peer : Peer) (s : SendState)
    (cumAck : Nat) :
    (m.recordAck peer s cumAck).1 = { s with cumAcked := max s.cumAcked cumAck } := by
  unfold recordAck
  split
  next hgt => rw [Nat.max_eq_right (Nat.le_of_lt hgt)]
  next hle => rw [Nat.max_eq_left (Nat.le_of_not_gt hle)]

/-- `handle_resume`, with the credits set in one place. -/
theorem handleResume_eq [Wal σ] (m : ReliabilityManager σ) (peer : Peer) (resume : ResumeMeta)
    (w : Writer) :
    m.handleResume peer resume w =
      let s := { m.sendState peer with creditsBytes := resume.balance (m.sendState peer) }
      match Wal.range m.storage peer resume.receiverCumProc none with
      | .error e => (.error (.storage e), (m.initSendState peer).2.setSend peer s, w)
      | .ok entries =>
        let (result, credits, w) := retransmit entries s.creditsBytes w
        (result, (m.initSendState peer).2.setSend peer { s with creditsBytes := credits }, w) := by
  unfold handleResume ResumeMeta.balance
  dsimp only
  rw [initSendState_storage]
  cases resume.startingCredits <;> rfl

theorem setSend_sendState [Wal σ] (m : ReliabilityManager σ) (peer : Peer) (s : SendState) :
    (m.setSend peer s).sendState peer = s := by
  unfold sendState initSendState setSend
  dsimp only
  rw [HashMap.lookup_insert_ite, if_pos rfl]

/-- What `process_ack_frame` returns and leaves when no write fails. -/
theorem processAckFrame_infallible [Wal σ] (m : ReliabilityManager σ) (peer : Peer)
    (ack : AckMeta) {w : Writer} (hw : w.remaining = none) :
    let sent := covered frameLen ack.credits.toNat (m.sendState peer).pendingFrames
    (m.processAckFrame peer ack w).1 = .ok () ∧
    (m.processAckFrame peer ack w).2.1.sendState peer =
      { m.sendState peer with
        cumAcked := max (m.sendState peer).cumAcked ack.cumAck
        creditsBytes := ack.credits.toNat - total frameLen sent
        pendingFrames := (m.sendState peer).pendingFrames.drop sent.length } ∧
    (m.processAckFrame peer ack w).2.2 = { w with written := w.written ++ sent.map Prod.snd } := by
  intro sent
  have hstate : (m.initSendState peer).1 = m.sendState peer := rfl
  unfold processAckFrame
  dsimp only
  rw [recordAck_fst, hstate, drainPending_eq _ _ _ _ hw]
  dsimp only
  rw [List.nil_append, foldl_eraseIdx_range', setSend_sendState]
  exact ⟨rfl, rfl, rfl⟩

end ReliabilityManager

open ReliabilityManager

variable {σ : Type}

/-- One operation of a sender for a peer. -/
inductive SendOp where
  | sendData (myNodeId : UInt64) (payload : Bytes)
  | processAckFrame (ack : AckMeta)
  | handleResume (resume : ResumeMeta)

namespace SendOp

/-- The operation made on a manager and its connection. -/
def run [Wal σ] (crates : Crates) (peer : Peer) (m : ReliabilityManager σ) (w : Writer) :
    SendOp → Except ReliabilityError Unit × ReliabilityManager σ × Writer
  | sendData myNodeId payload => m.sendData crates peer myNodeId payload w
  | processAckFrame ack => m.processAckFrame peer ack w
  | handleResume resume => m.handleResume peer resume w

/-- The value the operation assigns to the balance. -/
def assigns : SendOp → Option Int
  | sendData .. => none
  | processAckFrame ack => some ack.credits.toNat
  | handleResume resume => resume.startingCredits.map fun credits => (credits.toNat : Int)

/-- The balance the operation's frames are written against. -/
def balance (s : SendState) (op : SendOp) : Int := op.assigns.getD s.creditsBytes

/-- The frames the operation would write, the first ones first. -/
def candidates [Wal σ] (crates : Crates) (peer : Peer) (m : ReliabilityManager σ) :
    SendOp → List (Nat × Bytes)
  | sendData myNodeId payload =>
    ((m.sendAppends crates peer myNodeId payload).map entryFrame).toList
  | processAckFrame _ => (m.sendState peer).pendingFrames
  | handleResume resume =>
    match Wal.range m.storage peer resume.receiverCumProc none with
    | .ok entries => entries.map entryFrame
    | .error _ => []

/-- The frames the operation writes. -/
def writes [Wal σ] (crates : Crates) (peer : Peer) (m : ReliabilityManager σ) (op : SendOp) :
    List (Nat × Bytes) :=
  covered frameLen (op.balance (m.sendState peer)) (op.candidates crates peer m)

/-- The send state the operation leaves. A new frame that is not written is
queued, and a queued frame that is written leaves the queue. -/
def after [Wal σ] (crates : Crates) (peer : Peer) (m : ReliabilityManager σ) (op : SendOp) :
    SendState :=
  let s := m.sendState peer
  let written := op.writes crates peer m
  let s := { s with creditsBytes := op.balance s - total frameLen written }
  match op with
  | sendData .. =>
    { s with
      nextMsgId := s.nextMsgId + 1
      pendingFrames := s.pendingFrames ++ (op.candidates crates peer m).drop written.length }
  | processAckFrame ack =>
    { s with
      cumAcked := max s.cumAcked ack.cumAck
      pendingFrames := s.pendingFrames.drop written.length }
  | handleResume _ => s

/-- `send_data` on a connection that takes every write. -/
theorem sendData_spec [Wal σ] (crates : Crates) (peer : Peer) (m : ReliabilityManager σ)
    (myNodeId : UInt64) (payload : Bytes) {w : Writer} (hw : w.remaining = none) :
    let op : SendOp := .sendData myNodeId payload
    (m.sendData crates peer myNodeId payload w).2.1.sendState peer = op.after crates peer m ∧
    (m.sendData crates peer myNodeId payload w).2.2
      = { w with written := w.written ++ (op.writes crates peer m).map Prod.snd } := by
  intro op
  have hstate : (m.initSendState peer).1 = m.sendState peer := rfl
  have hbalance : op.balance (m.sendState peer) = (m.sendState peer).creditsBytes := rfl
  have hcand : op.candidates crates peer m
      = ((m.sendAppends crates peer myNodeId payload).map entryFrame).toList := rfl
  unfold ReliabilityManager.sendData after writes
  unfold sendAppends at hcand
  dsimp only
  rw [hstate, hbalance, hcand]
  cases buildData crates peer myNodeId (m.sendState peer).nextMsgId payload with
  | error e =>
    -- nothing is logged, queued or written, and the id is used up
    dsimp only
    rw [setSend_sendState]
    simp [covered, op]
  | ok bytes =>
    dsimp only [Option.map_some, Option.toList_some]
    unfold covered covered
    by_cases hge : (m.sendState peer).creditsBytes ≥ bytes.length
    · rw [if_pos hge, writeAll_infallible hw]
      dsimp only
      rw [if_pos hge, setSend_sendState]
      simp [op]
    · rw [if_neg hge]
      dsimp only
      rw [if_neg hge, setSend_sendState]
      simp [op]

/-- `process_ack_frame` on a connection that takes every write. -/
theorem processAckFrame_spec [Wal σ] (crates : Crates) (peer : Peer) (m : ReliabilityManager σ)
    (ack : AckMeta) {w : Writer} (hw : w.remaining = none) :
    let op : SendOp := .processAckFrame ack
    (m.processAckFrame peer ack w).2.1.sendState peer = op.after crates peer m ∧
    (m.processAckFrame peer ack w).2.2
      = { w with written := w.written ++ (op.writes crates peer m).map Prod.snd } := by
  obtain ⟨-, hstate, hwriter⟩ := processAckFrame_infallible m peer ack hw
  exact ⟨hstate, hwriter⟩

/-- `handle_resume` on a connection that takes every write. -/
theorem handleResume_spec [Wal σ] (crates : Crates) (peer : Peer) (m : ReliabilityManager σ)
    (resume : ResumeMeta) {w : Writer} (hw : w.remaining = none) :
    let op : SendOp := .handleResume resume
    (m.handleResume peer resume w).2.1.sendState peer = op.after crates peer m ∧
    (m.handleResume peer resume w).2.2
      = { w with written := w.written ++ (op.writes crates peer m).map Prod.snd } := by
  intro op
  have hbalance : op.balance (m.sendState peer) = resume.balance (m.sendState peer) := rfl
  have hcand : op.candidates crates peer m = match Wal.range m.storage peer resume.receiverCumProc
      none with
    | .ok entries => entries.map entryFrame
    | .error _ => [] := rfl
  unfold after writes
  dsimp only
  rw [handleResume_eq, hbalance, hcand]
  cases Wal.range m.storage peer resume.receiverCumProc none with
  | error e =>
    dsimp only
    rw [setSend_sendState]
    simp [covered, op]
  | ok entries =>
    dsimp only
    obtain ⟨credits', w', hloop⟩ := retransmit_isOk entries (resume.balance (m.sendState peer)) hw
    obtain ⟨hleft, hwritten, hremaining⟩ := retransmit_ok hloop
    rw [hloop]
    dsimp only
    rw [setSend_sendState, hleft]
    refine ⟨rfl, ?_⟩
    rw [← hwritten, hw, ← hremaining hw]

/-- **What the operations do** on a connection that takes every write. -/
theorem run_spec [Wal σ] (crates : Crates) (peer : Peer) (m : ReliabilityManager σ) (op : SendOp)
    {w : Writer} (hw : w.remaining = none) :
    (op.run crates peer m w).2.1.sendState peer = op.after crates peer m ∧
    (op.run crates peer m w).2.2
      = { w with written := w.written ++ (op.writes crates peer m).map Prod.snd } := by
  cases op with
  | sendData myNodeId payload => exact sendData_spec crates peer m myNodeId payload hw
  | processAckFrame ack => exact processAckFrame_spec crates peer m ack hw
  | handleResume resume => exact handleResume_spec crates peer m resume hw

/-- **The balance after an operation**: what it was assigned or had before, less
the bytes written. It does not go below zero. -/
theorem creditsBytes_after [Wal σ] (crates : Crates) (peer : Peer) (m : ReliabilityManager σ)
    (op : SendOp) (h : 0 ≤ (m.sendState peer).creditsBytes) :
    (op.after crates peer m).creditsBytes
      = op.balance (m.sendState peer) - total frameLen (op.writes crates peer m) ∧
    0 ≤ (op.after crates peer m).creditsBytes := by
  have hcredits : (op.after crates peer m).creditsBytes
      = op.balance (m.sendState peer) - total frameLen (op.writes crates peer m) := by
    cases op <;> rfl
  have hbalance : 0 ≤ op.balance (m.sendState peer) := by
    cases op with
    | sendData myNodeId payload => exact h
    | processAckFrame ack => exact Int.natCast_nonneg _
    | handleResume resume =>
      show 0 ≤ resume.balance (m.sendState peer)
      unfold ResumeMeta.balance
      cases resume.startingCredits with
      | none => exact h
      | some credits => exact Int.natCast_nonneg _
  have hle := total_covered_le frameLen hbalance (op.candidates crates peer m)
  refine ⟨hcredits, ?_⟩
  rw [hcredits]
  unfold writes
  omega

end SendOp

/-! ## Runs -/

/-- A run of operations for one peer on one connection: the manager and the
connection, the frames written with their ids, the value last assigned to the
balance, and how many frames had been written before that. -/
structure SenderRun (σ : Type) where
  manager : ReliabilityManager σ
  writer : Writer
  frames : List (Nat × Bytes)
  assigned : Int
  assignedAt : Nat

namespace SenderRun

/-- Nothing written and nothing assigned yet, on a connection that takes every write. -/
def start (m : ReliabilityManager σ) : SenderRun σ :=
  { manager := m, writer := { written := [], remaining := none }, frames := [], assigned := 0
    assignedAt := 0 }

/-- One operation. -/
def step [Wal σ] (crates : Crates) (peer : Peer) (r : SenderRun σ) (op : SendOp) : SenderRun σ :=
  let (_, manager, writer) := op.run crates peer r.manager r.writer
  { manager, writer
    frames := r.frames ++ op.writes crates peer r.manager
    assigned := op.assigns.getD r.assigned
    assignedAt := if op.assigns.isSome then r.writer.written.length else r.assignedAt }

/-- The send state of the peer. -/
abbrev state [Wal σ] (r : SenderRun σ) (peer : Peer) : SendState := r.manager.sendState peer

/-- The connection takes every write, and its frames are the ones of the run. -/
structure Tied (r : SenderRun σ) : Prop where
  infallible : r.writer.remaining = none
  written : r.writer.written = r.frames.map Prod.snd

theorem start_tied (m : ReliabilityManager σ) : (start m).Tied := ⟨rfl, rfl⟩

theorem step_frames [Wal σ] (crates : Crates) (peer : Peer) (r : SenderRun σ) (op : SendOp) :
    (r.step crates peer op).frames = r.frames ++ op.writes crates peer r.manager := rfl

/-- **One operation** of a run. -/
theorem Tied.step [Wal σ] (crates : Crates) (peer : Peer) {r : SenderRun σ} (h : r.Tied)
    (op : SendOp) :
    (r.step crates peer op).Tied ∧
      (r.step crates peer op).state peer = op.after crates peer r.manager := by
  obtain ⟨hstate, hwriter⟩ := op.run_spec crates peer r.manager h.infallible
  have hw : (r.step crates peer op).writer = _ := hwriter
  refine ⟨⟨by rw [hw]; exact h.infallible, ?_⟩, hstate⟩
  rw [hw, step_frames, List.map_append, ← h.written]

/-- The accounts balance: what was written since the last assignment and what is
left of it make up the value assigned. -/
structure Balanced [Wal σ] (peer : Peer) (r : SenderRun σ) : Prop where
  tied : r.Tied
  nonneg : 0 ≤ (r.state peer).creditsBytes
  earlier : r.assignedAt ≤ r.writer.written.length
  accounted : total List.length (r.writer.written.drop r.assignedAt)
    + (r.state peer).creditsBytes = r.assigned

theorem Balanced.step [Wal σ] {crates : Crates} {peer : Peer} {r : SenderRun σ}
    (h : r.Balanced peer) (op : SendOp) : (r.step crates peer op).Balanced peer := by
  obtain ⟨htied, hstate⟩ := h.tied.step crates peer op
  obtain ⟨hcredits, hnonneg⟩ := op.creditsBytes_after crates peer r.manager h.nonneg
  have hwritten : (r.step crates peer op).writer.written
      = r.writer.written ++ (op.writes crates peer r.manager).map Prod.snd := by
    rw [htied.written, step_frames, List.map_append, ← h.tied.written]
  have hlength : total List.length ((op.writes crates peer r.manager).map Prod.snd)
      = total frameLen (op.writes crates peer r.manager) := total_map _ _ _
  refine ⟨htied, by rw [hstate]; exact hnonneg, ?_, ?_⟩
  · rw [hwritten, List.length_append]
    have hearlier := h.earlier
    unfold SenderRun.step
    dsimp only
    split <;> omega
  · rw [hstate, hcredits, hwritten]
    have haccounted : _ + (r.manager.sendState peer).creditsBytes = r.assigned := h.accounted
    unfold SenderRun.step SendOp.balance
    dsimp only
    cases hassigns : op.assigns with
    | some value =>
      -- assigned now: only this operation's frames count
      simp only [Option.isSome_some, if_true, Option.getD_some]
      rw [List.drop_left, hlength]
      omega
    | none =>
      simp only [Option.isSome_none, Bool.false_eq_true, if_false, Option.getD_none]
      rw [List.drop_append_of_le_length h.earlier, total_append, hlength]
      omega

theorem start_balanced [Wal σ] (peer : Peer) (storage : σ) (ackInterval : Nat)
    (ackBatchSize defaultRecvWindow : UInt32) :
    (start (.new storage ackInterval ackBatchSize defaultRecvWindow)).Balanced peer :=
  ⟨start_tied _, Int.le_refl _, Nat.le_refl _, rfl⟩

end SenderRun

/-- **The sender never exceeds its grant**: in every run of the three operations
on a fresh manager, on any storage and on a connection that takes every write, the
balance is never negative, and the bytes written since it was last assigned and what
is left of it make up the value assigned. -/
theorem credits_account_for_writes [Wal σ] (crates : Crates) (peer : Peer) (storage : σ)
    (ackInterval : Nat) (ackBatchSize defaultRecvWindow : UInt32) (ops : List SendOp) :
    let r := ops.foldl (SenderRun.step crates peer)
      (.start (.new storage ackInterval ackBatchSize defaultRecvWindow))
    0 ≤ (r.state peer).creditsBytes ∧
      total List.length (r.writer.written.drop r.assignedAt) + (r.state peer).creditsBytes
        = r.assigned := by
  intro r
  have hr : r.Balanced peer := List.foldlRecOn ops _
    (SenderRun.start_balanced peer storage ackInterval ackBatchSize defaultRecvWindow)
    fun _ h op _ => h.step op
  exact ⟨hr.nonneg, hr.accounted⟩

end MeshCore.Session
