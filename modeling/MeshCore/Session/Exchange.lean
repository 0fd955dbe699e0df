import MeshCore.Lib.Mailbox
import MeshCore.Session.Keepalive
import MeshCore.Session.Queue
import MeshCore.Session.Window

/-!
# A sender and a receiver with their messages

The system of the delivery results, with the messages that were sent and those that were
reported as new: `Exchange`. Its steps are those of the system (`next_step`), taken by
operations that name what is done.

Every frame the sender has logged, queued or written is the frame of a message, which can be
decoded and carries its id and payload (`buildData_frame`, `Carries`), however writes fail
(`sendData_frames` and the lemmas after it).

Mirroring notes:
- ACKs and RESUMEs are on the network as the values they carry, DATA frames as bytes.
- An operation that is handed something that is not on the network changes nothing.
- A message is posted when it is logged. One that cannot be built is not, though it uses up
  an id.
-/

namespace MeshCore.Session

open MeshCore.Lib MeshCore.Wire MeshCore.Storage ReliabilityManager

/-! ## The frames of messages -/

/-- What is assumed of `ciborium` here: it writes no more than plain CBOR. -/
def WritesShort (crates : Crates) : Prop :=
  ∀ v bytes, crates.intoWriter v = some bytes → bytes.length ≤ (cborEncode v).length

theorem decoded_eq_some {bytes rest : Bytes} {f : Frame}
    (h : FrameDecoder.new.decode bytes = (.ok (some f), rest)) : decoded bytes = some f := by
  unfold decoded
  rw [h]

theorem decode_append {f : Frame} (hwf : f.WellFormed) (rest : Bytes) :
    FrameDecoder.new.decode (f.bytes ++ rest) = (.ok (some f), rest) :=
  framing.decode_encode f rest hwf

theorem decoded_bytes {f : Frame} (hwf : f.WellFormed) : decoded f.bytes = some f := by
  refine decoded_eq_some (?_ : FrameDecoder.new.decode f.bytes = (.ok (some f), []))
  have hdecode := decode_append hwf []
  rwa [List.append_nil] at hdecode

/-- The frame of a message can be decoded, and carries its id and its payload. -/
theorem buildData_frame {crates : Crates} (hshort : WritesShort crates) {peer : Peer}
    {myNodeId : UInt64} {msgId : Nat} {payload bytes : Bytes}
    (hbuild : buildData crates peer myNodeId msgId payload = .ok bytes) :
    ∃ f : Frame, decoded bytes = some f ∧ f.fast.msgId = UInt64.ofNat msgId ∧
      f.payloadOrCipher = payload := by
  have hsmall : (cborEncode (textMap
      (MetaBuilder.new.insertStr "content-type" "application/x-data").map)).length ≤ 1000 := by
    decide +kernel
  have hfast : (FastHeader.new .data myNodeId peer (UInt64.ofNat msgId)).WellFormed :=
    ⟨rfl, by show Flags.empty.Defined; decide, rfl, by show (16 : UInt8) ≠ 0; decide⟩
  obtain ⟨f, hwf, hheader, hpayload, rfl⟩ :=
    build_small hshort hfast rfl (by show Flags.empty.contains _ = false; decide) hsmall
      (by decide) hbuild
  exact ⟨f, decoded_bytes hwf, by rw [hheader]; rfl, hpayload⟩

/-! ## The system with its messages -/

/-- One operation of either side. -/
inductive SystemOp where
  | sendData (payload : Bytes) (remaining : Option Nat)
  | processDataFrame (now : Nat) (bytes : Bytes)
  | maybeBuildAck (now : Nat)
  | processAckFrame (ack : AckMeta) (remaining : Option Nat)
  | buildResume (now : Nat)
  | handleResume (resume : ResumeMeta) (remaining : Option Nat)

namespace System

/-- The system after an operation. -/
def next (crates : Crates) (senderId receiverId : UInt64) (s : System) : SystemOp → System
  | .sendData payload remaining =>
    let (_, sender, w) := s.sender.sendData crates receiverId senderId payload
      { written := [], remaining }
    { s with
      sender
      dataNet := s.dataNet ++ w.written
      appended := s.appended ++
        ((s.sender.sendAppends crates receiverId senderId payload).map WalEntry.msgId).toList }
  | .processDataFrame now bytes =>
    if bytes ∈ s.dataNet then
      match decoded bytes with
      | some frame =>
        let (result, receiver) := s.receiver.processDataFrame now senderId frame.fast.msgId.toNat
          frame.payloadOrCipher
        { s with
          receiver
          delivered :=
            match result with
            | .ok true => s.delivered ++ [frame.fast.msgId.toNat]
            | _ => s.delivered }
      | none => s
    else s
  | .maybeBuildAck now =>
    let (result, receiver) := s.receiver.maybeBuildAck crates now senderId receiverId
    { s with
      receiver
      ackNet :=
        match result with
        | .ok (some _) => s.ackNet ++ [ackValues (receiver.recvState now senderId)]
        | _ => s.ackNet }
  | .processAckFrame ack remaining =>
    if ack ∈ s.ackNet then
      let (_, sender, w) := s.sender.processAckFrame receiverId ack { written := [], remaining }
      { s with sender, dataNet := s.dataNet ++ w.written }
    else s
  | .buildResume now =>
    let (result, receiver) := s.receiver.buildResume crates now senderId receiverId
    { s with
      receiver
      resumeNet :=
        match result with
        | .ok _ => s.resumeNet ++
            [resumeValues (receiver.sendState senderId) (receiver.recvState now senderId)]
        | .error _ => s.resumeNet }
  | .handleResume resume remaining =>
    if resume ∈ s.resumeNet then
      let (_, sender, w) := s.sender.handleResume receiverId resume { written := [], remaining }
      { s with sender, dataNet := s.dataNet ++ w.written }
    else s

/-- It is a step of the system, or nothing. -/
theorem next_step (crates : Crates) (senderId receiverId : UInt64) (s : System) (op : SystemOp) :
    s.next crates senderId receiverId op = s ∨
      Step crates senderId receiverId s (s.next crates senderId receiverId op) := by
  cases op with
  | sendData payload remaining => exact .inr (.sendData s payload remaining)
  | processDataFrame now bytes =>
    unfold next
    dsimp only
    split
    next hmem =>
      unfold decoded
      rcases hdecode : FrameDecoder.new.decode bytes with ⟨result, rest⟩
      rcases result with e | frame
      · exact .inl rfl
      · cases frame with
        | none => exact .inl rfl
        | some frame => exact .inr (.processDataFrame s now bytes frame rest hmem hdecode)
    next => exact .inl rfl
  | maybeBuildAck now => exact .inr (.maybeBuildAck s now)
  | processAckFrame ack remaining =>
    unfold next
    dsimp only
    split
    next hmem => exact .inr (.processAckFrame s ack remaining hmem)
    next => exact .inl rfl
  | buildResume now => exact .inr (.buildResume s now)
  | handleResume resume remaining =>
    unfold next
    dsimp only
    split
    next hmem => exact .inr (.handleResume s resume remaining hmem)
    next => exact .inl rfl

end System

theorem Safe.next {crates : Crates} {senderId receiverId : UInt64} {s : System}
    (h : Safe senderId receiverId s) (op : SystemOp) :
    Safe senderId receiverId (s.next crates senderId receiverId op) := by
  rcases s.next_step crates senderId receiverId op with heq | hstep
  · rw [heq]
    exact h
  · exact h.step hstep

/-- A system, the messages that were logged, and those that were reported as new. -/
structure Exchange where
  system : System
  posted : List (Nat × Bytes)
  taken : List (Nat × Bytes)

namespace Exchange

section Definitions

variable (crates : Crates) (senderId receiverId : UInt64)

/-- The message an operation logs. -/
def posts (s : System) : SystemOp → Option (Nat × Bytes)
  | .sendData payload _ =>
    (s.sender.sendAppends crates receiverId senderId payload).map fun e => (e.msgId, payload)
  | _ => none

/-- The message an operation reports as new. -/
def takes (s : System) : SystemOp → Option (Nat × Bytes)
  | .processDataFrame now bytes =>
    if bytes ∈ s.dataNet then
      (decoded bytes).bind fun frame =>
        match (s.receiver.processDataFrame now senderId frame.fast.msgId.toNat
          frame.payloadOrCipher).1 with
        | .ok true => some (frame.fast.msgId.toNat, frame.payloadOrCipher)
        | _ => none
    else none
  | _ => none

/-- One operation. -/
def step (x : Exchange) (op : SystemOp) : Exchange :=
  { system := x.system.next crates senderId receiverId op
    posted := x.posted ++ (posts crates senderId receiverId x.system op).toList
    taken := x.taken ++ (takes senderId x.system op).toList }

/-- A fresh exchange. -/
def start (sender receiver : ReliabilityManager MemoryStorage) : Exchange :=
  { system := .init sender receiver, posted := [], taken := [] }

/-- What it is seen as. -/
def mailbox (x : Exchange) : Mailbox Bytes := ⟨x.posted, x.taken⟩

/-- The id the sender uses next. -/
def nextMsgId (x : Exchange) : Nat := (x.system.sender.sendState receiverId).nextMsgId

/-- The receiver's watermark. -/
def watermark (x : Exchange) : Nat := (recordOf x.system.receiver).cum senderId

/-- The sender is no more than the window ahead of the receiver, and ids do not run out. -/
def WithinWindow (windowSize : Nat) (x : Exchange) : Prop :=
  x.nextMsgId receiverId ≤ x.watermark senderId + windowSize + 1 ∧
    x.nextMsgId receiverId + windowSize < 2 ^ 64

/-- These bytes are the frame of a message that was logged under this id. -/
def Carries (x : Exchange) (msgId : Nat) (bytes : Bytes) : Prop :=
  ∃ payload, (msgId, payload) ∈ x.posted ∧
    buildData crates receiverId senderId msgId payload = .ok bytes

/-- The sender's half: its frames are those of the messages it has logged. -/
structure Sends (x : Exchange) : Prop where
  appended : x.posted.map Prod.fst = x.system.appended
  below : ∀ e ∈ x.posted, e.1 < x.nextMsgId receiverId
  log : ∀ e ∈ x.system.sender.storage.wal.entriesOf receiverId,
    Carries crates senderId receiverId x e.msgId e.bytes
  pending : ∀ f ∈ (x.system.sender.sendState receiverId).pendingFrames,
    ∃ msgId, Carries crates senderId receiverId x msgId f.2
  net : ∀ bytes ∈ x.system.dataNet, ∃ msgId, Carries crates senderId receiverId x msgId bytes

/-- The receiver's half: what it has reported is recorded. -/
structure Receives (windowSize : Nat) (x : Exchange) : Prop where
  delivered : x.taken.map Prod.fst = x.system.delivered
  posted : ∀ e ∈ x.taken, e ∈ x.posted
  size : (recordOf x.system.receiver).windowSize = windowSize
  inWindow : (recordOf x.system.receiver).InWindow senderId
  recorded : ∀ e ∈ x.taken, (recordOf x.system.receiver).isProcessed senderId e.1 = true
  resumes : ∀ r ∈ x.system.resumeNet, r.receiverCumProc ≤ x.watermark senderId

/-- **The invariant.** -/
structure Inv (windowSize : Nat) (x : Exchange) : Prop where
  safe : Safe senderId receiverId x.system
  sends : Sends crates senderId receiverId x
  receives : Receives senderId windowSize x

end Definitions

end Exchange

/-! ## What the sender writes -/

section Writes

variable {σ : Type}

theorem mem_writeAll {w : Writer} {bytes b : Bytes} (h : b ∈ (w.writeAll bytes).2.written) :
    b ∈ w.written ∨ b = bytes := by
  unfold Writer.writeAll at h
  split at h
  · exact .inl h
  · exact (List.mem_append.mp h).imp_right List.mem_singleton.mp
  · exact (List.mem_append.mp h).imp_right List.mem_singleton.mp

/-- The loop over the log writes log entries. -/
theorem mem_retransmit {b : Bytes} : ∀ (entries : List WalEntry) (credits : Int) (w : Writer),
    b ∈ (retransmit entries credits w).2.2.written → b ∈ w.written ∨ ∃ e ∈ entries, e.bytes = b
  | [], credits, w, h => .inl h
  | entry :: entries, credits, w, h => by
    unfold retransmit at h
    split at h
    next =>
      have hwrite := @mem_writeAll w entry.bytes b
      rcases hout : w.writeAll entry.bytes with ⟨result, w'⟩
      rw [hout] at h hwrite
      cases result with
      | error e => exact (hwrite h).imp_right fun heq => ⟨entry, List.mem_cons_self .., heq.symm⟩
      | ok u =>
        rcases mem_retransmit entries _ w' h with h | ⟨e, he, heq⟩
        · exact (hwrite h).imp_right fun heq => ⟨entry, List.mem_cons_self .., heq.symm⟩
        · exact .inr ⟨e, List.mem_cons_of_mem _ he, heq⟩
    next => exact .inl h

variable [Wal σ] (m : ReliabilityManager σ) (peer : Peer) (w : Writer)

/-- `send_data` writes or queues the frame it logs. -/
theorem sendData_frames (crates : Crates) (myNodeId : UInt64) (payload : Bytes) :
    let out := m.sendData crates peer myNodeId payload w
    let entry := m.sendAppends crates peer myNodeId payload
    (∀ b ∈ out.2.2.written, b ∈ w.written ∨ ∃ e ∈ entry, e.bytes = b) ∧
    ∀ f ∈ (out.2.1.sendState peer).pendingFrames,
      f ∈ (m.sendState peer).pendingFrames ∨ ∃ e ∈ entry, e.bytes = f.2 := by
  have hstate : (m.initSendState peer).1 = m.sendState peer := rfl
  unfold ReliabilityManager.sendData sendAppends
  dsimp only
  rw [hstate]
  cases hbuild : buildData crates peer myNodeId (m.sendState peer).nextMsgId payload with
  | error e =>
    dsimp only
    rw [setSend_sendState]
    exact ⟨fun b hb => .inl hb, fun f hf => .inl hf⟩
  | ok bytes =>
    dsimp only
    split
    next =>
      have hwrite := fun b => @mem_writeAll w bytes b
      rcases hout : w.writeAll bytes with ⟨result, w'⟩
      rw [hout] at hwrite
      cases result with
      | error e =>
        dsimp only
        rw [setSend_sendState]
        exact ⟨fun b hb => (hwrite b hb).imp_right fun heq => ⟨_, rfl, heq.symm⟩,
          fun f hf => .inl hf⟩
      | ok u =>
        dsimp only
        rw [setSend_sendState]
        exact ⟨fun b hb => (hwrite b hb).imp_right fun heq => ⟨_, rfl, heq.symm⟩,
          fun f hf => .inl hf⟩
    next =>
      rw [setSend_sendState]
      refine ⟨fun b hb => .inl hb, fun f hf => ?_⟩
      rcases List.mem_append.mp hf with hf | hf
      · exact .inl hf
      · rw [List.mem_singleton.mp hf]
        exact .inr ⟨_, rfl, rfl⟩

/-- `process_ack_frame` writes frames of the queue, and queues no others. -/
theorem processAckFrame_frames (ack : AckMeta) :
    let out := m.processAckFrame peer ack w
    (∀ b ∈ out.2.2.written, b ∈ w.written ∨ ∃ f ∈ (m.sendState peer).pendingFrames, f.2 = b) ∧
    ∀ f ∈ (out.2.1.sendState peer).pendingFrames, f ∈ (m.sendState peer).pendingFrames := by
  refine ⟨fun b hb => ?_, fun f hf => (processAckFrame_queue m peer ack w).subset hf⟩
  rw [processAckFrame_written, List.mem_append, List.mem_map] at hb
  refine hb.imp_right fun ⟨f, hf, heq⟩ => ⟨f, ?_, heq⟩
  exact (covered_isPrefix frameLen _ _).subset ((taken_isPrefix w.remaining _).subset hf)

/-- `handle_resume` writes entries of the log, and leaves the queue. -/
theorem handleResume_frames (resume : ResumeMeta) :
    let out := m.handleResume peer resume w
    (∀ b ∈ out.2.2.written, b ∈ w.written ∨
      ∃ e ∈ entriesAbove m.storage peer resume.receiverCumProc, e.bytes = b) ∧
    (out.2.1.sendState peer).pendingFrames = (m.sendState peer).pendingFrames := by
  refine ⟨fun b hb => ?_, handleResume_queue m peer resume w⟩
  unfold entriesAbove
  rw [handleResume_eq] at hb
  cases hrange : Wal.range m.storage peer resume.receiverCumProc none with
  | error e =>
    rw [hrange] at hb
    exact .inl hb
  | ok entries =>
    rw [hrange] at hb
    exact mem_retransmit _ _ _ hb

end Writes

/-- `send_data` logs at most the entry of its message. -/
theorem sendData_log {crates : Crates} {m : ReliabilityManager MemoryStorage} {peer : Peer}
    {myNodeId : UInt64} {payload : Bytes} {w : Writer} {e : WalEntry}
    (h : e ∈ (m.sendData crates peer myNodeId payload w).2.1.storage.wal.entriesOf peer) :
    e ∈ m.storage.wal.entriesOf peer ∨ m.sendAppends crates peer myNodeId payload = some e := by
  obtain ⟨s, -, -, hsent⟩ := sendData_sent crates m peer myNodeId payload w
  rw [hsent.storage] at h
  cases hentry : m.sendAppends crates peer myNodeId payload with
  | none =>
    rw [hentry] at h
    exact .inl h
  | some entry =>
    rw [hentry] at h
    have hmem : e ∈ (m.storage.wal.append peer entry).entriesOf peer := h
    rw [MemoryWal.entriesOf_append, if_pos rfl, List.mem_append, List.mem_singleton] at hmem
    exact hmem.imp_right fun heq => congrArg some heq.symm

/-- `process_ack_frame` logs nothing. -/
theorem processAckFrame_log {m : ReliabilityManager MemoryStorage} {peer : Peer} {ack : AckMeta}
    {w : Writer} {e : WalEntry}
    (h : e ∈ (m.processAckFrame peer ack w).2.1.storage.wal.entriesOf peer) :
    e ∈ m.storage.wal.entriesOf peer := by
  obtain ⟨s, -, -, hsent⟩ := processAckFrame_sent m peer ack w
  rw [hsent.storage] at h
  split at h
  next =>
    have hmem : e ∈ ((m.storage.wal.storeAck peer { cumAcked := ack.cumAck }).truncateThrough peer
        ack.cumAck).entriesOf peer := h
    rw [MemoryWal.entriesOf_truncateThrough, if_pos rfl] at hmem
    exact (List.mem_filter.mp hmem).1
  next => exact h

end MeshCore.Session
