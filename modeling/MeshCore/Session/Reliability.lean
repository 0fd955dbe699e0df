import MeshCore.Storage.Memory
import MeshCore.Wire.Codec

/-!
# The reliability layer (`mesh-session/src/reliability.rs`)

`ReliabilityManager` numbers outgoing DATA frames, logs them before they are
written, queues them while the receiver's credits do not suffice, and drops them
from the log when they are acknowledged. On the receiving side it discards what
was processed before and builds the ACKs. The manager is generic in its storage,
as the source is through `dyn Wal` and `dyn Dedup`.

This file is the model and the lemmas about single operations that more than one
result needs; the results are in the modules that follow.

Mirroring notes:
- An operation returns its outcome together with the manager as it is left, also
  when it fails: `next_msg_id` is advanced before the frame is built, and stays
  so when `?` returns early.
- `init_send_state` followed by `get_mut(&peer).unwrap()` is one function that
  gives the state and the manager that has it. A manager keeps the state it is
  given with `setSend`, as `get_mut` does by reference.
- The writer is a list of the frames written and, when it is to fail, the number
  of writes that still succeed. A frame that could not be written leaves nothing
  behind.
- `now` is what `Instant::now()` gives. `u32` counters and the casts `as u32`
  keep their width; credits are `i64` and modelled as integers.
-/

namespace MeshCore.Session

open MeshCore.Lib MeshCore.Wire MeshCore.Storage

/-! ## The states -/

/-- `SendState`. -/
structure SendState where
  nextMsgId : Nat := 1
  cumAcked : Nat := 0
  creditsBytes : Int := 0
  pendingFrames : List (Nat × Bytes) := []
  deriving Repr, DecidableEq

/-- `RecvState`. -/
structure RecvState where
  cumProcessed : Nat
  creditsMax : UInt32
  creditsAvail : Int
  ackPending : Bool
  lastAckSent : Nat
  msgsSinceAck : UInt32
  deriving Repr, DecidableEq

/-- `AckMeta`. -/
structure AckMeta where
  cumAck : Nat
  credits : UInt32
  deriving Repr, DecidableEq

/-- `ResumeMeta`. -/
structure ResumeMeta where
  resume : Bool
  senderCumAck : Nat
  receiverCumProc : Nat
  startingCredits : Option UInt32
  deriving Repr, DecidableEq

/-- The errors behind the `anyhow::Error` of the operations. -/
inductive ReliabilityError where
  | codec (e : CodecError)
  | cbor
  | storage (e : StorageError)
  | io
  deriving Repr, DecidableEq

/-- The connection an operation writes to. -/
structure Writer where
  written : List Bytes
  remaining : Option Nat
  deriving Repr, DecidableEq

/-- `write_all` of one frame. -/
def Writer.writeAll (w : Writer) (bytes : Bytes) : Except ReliabilityError Unit × Writer :=
  match w.remaining with
  | some 0 => (.error .io, w)
  | some (n + 1) => (.ok (), { written := w.written ++ [bytes], remaining := some n })
  | none => (.ok (), { w with written := w.written ++ [bytes] })

/-- `ReliabilityManager`, on a storage `σ`. -/
structure ReliabilityManager (σ : Type) where
  storage : σ
  sendStates : HashMap Peer SendState
  recvStates : HashMap Peer RecvState
  ackInterval : Nat
  ackBatchSize : UInt32
  defaultRecvWindow : UInt32

namespace ReliabilityManager

variable {σ : Type}

/-- `ReliabilityManager::new`. -/
def new (storage : σ) (ackInterval : Nat) (ackBatchSize defaultRecvWindow : UInt32) :
    ReliabilityManager σ :=
  { storage, sendStates := ∅, recvStates := ∅, ackInterval, ackBatchSize, defaultRecvWindow }

/-- Keep a send state. -/
def setSend (m : ReliabilityManager σ) (peer : Peer) (s : SendState) : ReliabilityManager σ :=
  { m with sendStates := m.sendStates.insert peer s }

/-- Keep a receive state. -/
def setRecv (m : ReliabilityManager σ) (peer : Peer) (r : RecvState) : ReliabilityManager σ :=
  { m with recvStates := m.recvStates.insert peer r }

/-- `init_send_state`, and the state of the peer after it. -/
def initSendState [Wal σ] (m : ReliabilityManager σ) (peer : Peer) :
    SendState × ReliabilityManager σ :=
  match m.sendStates.lookup peer with
  | some s => (s, m)
  | none =>
    let s : SendState :=
      { nextMsgId := Wal.lastAppended m.storage peer + 1
        cumAcked := (Wal.loadAck m.storage peer).cumAcked }
    (s, m.setSend peer s)

/-- `init_recv_state`, and the state of the peer after it. -/
def initRecvState [Dedup σ] (m : ReliabilityManager σ) (now : Nat) (peer : Peer) :
    RecvState × ReliabilityManager σ :=
  match m.recvStates.lookup peer with
  | some r => (r, m)
  | none =>
    let r : RecvState :=
      { cumProcessed := Dedup.cumProcessed m.storage peer
        creditsMax := m.defaultRecvWindow
        creditsAvail := m.defaultRecvWindow.toNat
        ackPending := false
        lastAckSent := now
        msgsSinceAck := 0 }
    (r, m.setRecv peer r)

/-! ## Sending -/

/-- The builder of a DATA frame. -/
def dataBuilder (peer : Peer) (myNodeId : UInt64) (msgId : Nat) (payload : Bytes) : FrameBuilder :=
  ((FrameBuilder.new (.new .data myNodeId peer (UInt64.ofNat msgId))).metaInsertStr
    "content-type" "application/x-data").payload payload

/-- The DATA frame of a message. -/
def buildData (crates : Crates) (peer : Peer) (myNodeId : UInt64) (msgId : Nat) (payload : Bytes) :
    Except CodecError Bytes :=
  (dataBuilder peer myNodeId msgId payload).build crates (16 * 1024 * 1024)

/-- `send_data`. -/
def sendData [Wal σ] (crates : Crates) (m : ReliabilityManager σ) (peer : Peer) (myNodeId : UInt64)
    (payload : Bytes) (w : Writer) :
    Except ReliabilityError Unit × ReliabilityManager σ × Writer :=
  let (s, m) := m.initSendState peer
  let msgId := s.nextMsgId
  let s := { s with nextMsgId := s.nextMsgId + 1 }
  match buildData crates peer myNodeId msgId payload with
  -- the id is not given back
  | .error e => (.error (.codec e), m.setSend peer s, w)
  | .ok frameBytes =>
    let m := { m with storage := Wal.append m.storage peer { msgId, bytes := frameBytes } }
    if s.creditsBytes ≥ frameBytes.length then
      match w.writeAll frameBytes with
      | (.error e, w) => (.error e, m.setSend peer s, w)
      | (.ok (), w) =>
        (.ok (), m.setSend peer { s with creditsBytes := s.creditsBytes - frameBytes.length }, w)
    else
      (.ok (),
        m.setSend peer { s with pendingFrames := s.pendingFrames ++ [(msgId, frameBytes)] }, w)

/-- The loop that sends pending frames: the indices of the frames sent, the
credits left and the writer, or the error of a write. -/
def drainPending : Nat → List (Nat × Bytes) → Int → List Nat → Writer →
    Except ReliabilityError (List Nat) × Int × Writer
  | _, [], credits, sentFrames, w => (.ok sentFrames, credits, w)
  | i, (_, frameBytes) :: pending, credits, sentFrames, w =>
    if credits ≥ frameBytes.length then
      match w.writeAll frameBytes with
      | (.error e, w) => (.error e, credits, w)
      | (.ok (), w) =>
        drainPending (i + 1) pending (credits - frameBytes.length) (sentFrames ++ [i]) w
    else (.ok sentFrames, credits, w)

/-- Record an acknowledgement: the watermark, the stored ACK state, and the log. -/
def recordAck [Wal σ] (m : ReliabilityManager σ) (peer : Peer) (s : SendState) (cumAck : Nat) :
    SendState × ReliabilityManager σ :=
  if cumAck > s.cumAcked then
    ({ s with cumAcked := cumAck },
     { m with storage :=
        Wal.truncateThrough (Wal.storeAck m.storage peer { cumAcked := cumAck }) peer cumAck })
  else (s, m)

/-- `process_ack_frame`. -/
def processAckFrame [Wal σ] (m : ReliabilityManager σ) (peer : Peer) (ack : AckMeta) (w : Writer) :
    Except ReliabilityError Unit × ReliabilityManager σ × Writer :=
  let (s, m) := m.initSendState peer
  let (s, m) := m.recordAck peer s ack.cumAck
  match drainPending 0 s.pendingFrames ack.credits.toNat [] w with
  -- after a failed write the frames already sent stay pending
  | (.error e, credits, w) => (.error e, m.setSend peer { s with creditsBytes := credits }, w)
  | (.ok sentFrames, credits, w) =>
    -- indices are removed from the back, so the earlier ones stay valid
    let pending := sentFrames.reverse.foldl (fun frames i => frames.eraseIdx i) s.pendingFrames
    (.ok (), m.setSend peer { s with creditsBytes := credits, pendingFrames := pending }, w)

/-- The loop that retransmits log entries. -/
def retransmit : List WalEntry → Int → Writer → Except ReliabilityError Unit × Int × Writer
  | [], credits, w => (.ok (), credits, w)
  | entry :: entries, credits, w =>
    if credits ≥ entry.bytes.length then
      match w.writeAll entry.bytes with
      | (.error e, w) => (.error e, credits, w)
      | (.ok (), w) => retransmit entries (credits - entry.bytes.length) w
    else (.ok (), credits, w)

/-- `handle_resume`. -/
def handleResume [Wal σ] (m : ReliabilityManager σ) (peer : Peer) (resume : ResumeMeta)
    (w : Writer) : Except ReliabilityError Unit × ReliabilityManager σ × Writer :=
  let (s, m) := m.initSendState peer
  let s :=
    match resume.startingCredits with
    | some credits => { s with creditsBytes := credits.toNat }
    | none => s
  match Wal.range m.storage peer resume.receiverCumProc none with
  | .error e => (.error (.storage e), m.setSend peer s, w)
  | .ok entries =>
    let (result, credits, w) := retransmit entries s.creditsBytes w
    (result, m.setSend peer { s with creditsBytes := credits }, w)

/-! ## Receiving -/

/-- `process_data_frame`: whether the message is newly processed. -/
def processDataFrame [Dedup σ] (m : ReliabilityManager σ) (now : Nat) (peer : Peer) (msgId : Nat)
    (payload : Bytes) : Except ReliabilityError Bool × ReliabilityManager σ :=
  let (r, m) := m.initRecvState now peer
  if Dedup.isProcessed m.storage peer msgId then
    (.ok false, m.setRecv peer { r with ackPending := true })
  else
    let m := { m with storage := Dedup.markProcessed m.storage peer msgId }
    let r :=
      { r with
        cumProcessed := Dedup.cumProcessed m.storage peer
        creditsAvail := r.creditsAvail - payload.length
        ackPending := true
        msgsSinceAck := r.msgsSinceAck + 1 }
    (.ok true, m.setRecv peer r)

/-- The order of text keys in a `serde_cbor` map: the shorter first. -/
def cborKeyLt (a b : String) : Bool :=
  a.utf8ByteSize < b.utf8ByteSize || (a.utf8ByteSize == b.utf8ByteSize && a < b)

/-- A `serde_cbor` map with text keys, as bytes. -/
def cborMap (crates : Crates) (entries : List (String × CborValue)) :
    Except ReliabilityError Bytes :=
  let map := entries.foldl (fun m e => BTreeMap.insert cborKeyLt m e.1 e.2) []
  match crates.toVec (.map (map.map fun e => (.text e.1, e.2))) with
  | some bytes => .ok bytes
  | none => .error .cbor

/-- A control frame whose metadata holds a content type and a CBOR map. -/
def buildControl (crates : Crates) (typ : FrameType) (peer : Peer) (myNodeId : UInt64)
    (contentType key : String) (entries : List (String × CborValue)) :
    Except ReliabilityError Bytes := do
  let metaBytes ← cborMap crates entries
  match ((((FrameBuilder.new (.new typ myNodeId peer 0)).metaInsertStr
      "content-type" contentType).metaInsertBytes key metaBytes).payload []).build crates
      (1024 * 1024) with
  | .ok bytes => .ok bytes
  | .error e => .error (.codec e)

/-- Whether an ACK is due. -/
def shouldAck (m : ReliabilityManager σ) (now : Nat) (r : RecvState) : Bool :=
  r.ackPending &&
    (now - r.lastAckSent ≥ m.ackInterval || r.msgsSinceAck ≥ m.ackBatchSize ||
      r.creditsAvail ≤ (r.creditsMax.toNat : Int) / 4)

/-- The ACK frame of a receive state. -/
def buildAck (crates : Crates) (peer : Peer) (myNodeId : UInt64) (r : RecvState) :
    Except ReliabilityError Bytes :=
  buildControl crates .meshAck peer myNodeId "application/x-ack" "ack"
    [("cum_ack", .integer r.cumProcessed), ("credits", .integer r.creditsAvail)]

/-- `maybe_build_ack`. -/
def maybeBuildAck [Dedup σ] (crates : Crates) (m : ReliabilityManager σ) (now : Nat) (peer : Peer)
    (myNodeId : UInt64) : Except ReliabilityError (Option Bytes) × ReliabilityManager σ :=
  let (r, m) := m.initRecvState now peer
  if m.shouldAck now r then
    let r :=
      if r.creditsAvail ≤ (r.creditsMax.toNat : Int) / 2 then
        { r with creditsAvail := r.creditsMax.toNat }
      else r
    match buildAck crates peer myNodeId r with
    | .error e => (.error e, m.setRecv peer r)
    | .ok ackFrame =>
      (.ok (some ackFrame),
        m.setRecv peer { r with ackPending := false, lastAckSent := now, msgsSinceAck := 0 })
  else (.ok none, m)

/-- `build_resume`. -/
def buildResume [Wal σ] [Dedup σ] (crates : Crates) (m : ReliabilityManager σ) (now : Nat)
    (peer : Peer) (myNodeId : UInt64) : Except ReliabilityError Bytes × ReliabilityManager σ :=
  let (s, m) := m.initSendState peer
  let (r, m) := m.initRecvState now peer
  (buildControl crates .resume peer myNodeId "application/x-resume" "resume"
    [("resume", .bool true), ("sender_cum_ack", .integer s.cumAcked),
     ("receiver_cum_proc", .integer r.cumProcessed),
     ("starting_credits", .integer r.creditsMax.toNat)], m)

/-! ## What an operation changes

Every sending operation ends by keeping one send state; `Sent` names the
managers that can come out, and the three lemmas after it say which one does. -/

/-- The send state of a peer: the one kept, or else the one `init_send_state`
would load. -/
def sendState [Wal σ] (m : ReliabilityManager σ) (peer : Peer) : SendState :=
  (m.initSendState peer).1

/-- The receive state of a peer, likewise. -/
def recvState [Dedup σ] (m : ReliabilityManager σ) (now : Nat) (peer : Peer) : RecvState :=
  (m.initRecvState now peer).1

/-- Of a receive state, only the time of the last ACK depends on the clock. -/
theorem recvState_now [Dedup σ] (m : ReliabilityManager σ) (now now' : Nat) (peer : Peer) :
    (m.recvState now peer).creditsAvail = (m.recvState now' peer).creditsAvail ∧
      (m.recvState now peer).creditsMax = (m.recvState now' peer).creditsMax ∧
      (m.recvState now peer).cumProcessed = (m.recvState now' peer).cumProcessed := by
  unfold recvState initRecvState
  cases m.recvStates.lookup peer <;> exact ⟨rfl, rfl, rfl⟩

/-- `m'` is `m` with the storage `st`, and with `s` kept for the peer. -/
structure Sent (m m' : ReliabilityManager σ) (peer : Peer) (st : σ) (s : SendState) : Prop where
  storage : m'.storage = st
  recvStates : m'.recvStates = m.recvStates
  sendStates : ∀ q, m'.sendStates.lookup q = if q = peer then some s else m.sendStates.lookup q

/-- Keeping a send state after `init_send_state`, with a new storage. -/
theorem sent_setSend [Wal σ] (m : ReliabilityManager σ) (peer : Peer) (st : σ) (s : SendState) :
    Sent m (setSend { (m.initSendState peer).2 with storage := st } peer s) peer st s := by
  unfold initSendState
  cases m.sendStates.lookup peer with
  | some s' => exact ⟨rfl, rfl, fun q => HashMap.lookup_insert_ite ..⟩
  | none =>
    refine ⟨rfl, rfl, fun q => ?_⟩
    show ((m.sendStates.insert peer _).insert peer s).lookup q = _
    rw [HashMap.lookup_insert_ite, HashMap.lookup_insert_ite]
    split <;> rfl

theorem Sent.sendState_eq [Wal σ] {m m' : ReliabilityManager σ} {peer : Peer} {st : σ}
    {s : SendState} (h : Sent m m' peer st s) : m'.sendState peer = s := by
  unfold sendState initSendState
  rw [h.sendStates, if_pos rfl]

/-- The next id of another peer is not touched, if its log is not. -/
theorem Sent.nextMsgId_other [Wal σ] {m m' : ReliabilityManager σ} {peer q : Peer} {st : σ}
    {s : SendState} (h : Sent m m' peer st s) (hq : q ≠ peer)
    (hlast : Wal.lastAppended st q = Wal.lastAppended m.storage q) :
    (m'.sendState q).nextMsgId = (m.sendState q).nextMsgId := by
  unfold sendState initSendState
  rw [h.sendStates, if_neg hq, h.storage]
  cases m.sendStates.lookup q with
  | some s' => rfl
  | none => exact congrArg (· + 1) hlast

theorem sent_exists {m m' : ReliabilityManager σ} {peer : Peer} {st : σ} {s : SendState}
    {next acked : Nat} (h : Sent m m' peer st s) (hn : s.nextMsgId = next)
    (ha : s.cumAcked = acked) :
    ∃ s, s.nextMsgId = next ∧ s.cumAcked = acked ∧ Sent m m' peer st s :=
  ⟨s, hn, ha, h⟩

theorem initSendState_storage [Wal σ] (m : ReliabilityManager σ) (peer : Peer) :
    (m.initSendState peer).2.storage = m.storage := by
  unfold initSendState
  split <;> rfl

/-- The id `send_data` logs its frame under, when it gets as far as the log. -/
def sendAppends [Wal σ] (crates : Crates) (m : ReliabilityManager σ) (peer : Peer)
    (myNodeId : UInt64) (payload : Bytes) : Option WalEntry :=
  match buildData crates peer myNodeId (m.sendState peer).nextMsgId payload with
  | .ok bytes => some { msgId := (m.sendState peer).nextMsgId, bytes }
  | .error _ => none

/-- **What `send_data` does**: the next id is used up in any case, and the frame
is logged if it could be built. -/
theorem sendData_sent [Wal σ] (crates : Crates) (m : ReliabilityManager σ) (peer : Peer)
    (myNodeId : UInt64) (payload : Bytes) (w : Writer) :
    ∃ s, s.nextMsgId = (m.sendState peer).nextMsgId + 1 ∧
      s.cumAcked = (m.sendState peer).cumAcked ∧
      Sent m (m.sendData crates peer myNodeId payload w).2.1 peer
        (match m.sendAppends crates peer myNodeId payload with
          | some entry => Wal.append m.storage peer entry
          | none => m.storage) s := by
  unfold sendData sendAppends
  rw [← initSendState_storage m peer]
  dsimp only
  cases hb : buildData crates peer myNodeId (m.sendState peer).nextMsgId payload with
  | error e =>
    rw [show buildData crates peer myNodeId (m.initSendState peer).1.nextMsgId payload
      = .error e from hb]
    exact sent_exists (sent_setSend m peer _ _) rfl rfl
  | ok bytes =>
    rw [show buildData crates peer myNodeId (m.initSendState peer).1.nextMsgId payload
      = .ok bytes from hb]
    dsimp only
    split
    · split
      · exact sent_exists (sent_setSend m peer _ _) rfl rfl
      · exact sent_exists (sent_setSend m peer _ _) rfl rfl
    · exact sent_exists (sent_setSend m peer _ _) rfl rfl

/-- **What `process_ack_frame` does**: a higher watermark is kept, stored, and
truncates the log; a write error changes nothing about that. -/
theorem processAckFrame_sent [Wal σ] (m : ReliabilityManager σ) (peer : Peer) (ack : AckMeta)
    (w : Writer) :
    ∃ s, s.nextMsgId = (m.sendState peer).nextMsgId ∧
      s.cumAcked = max (m.sendState peer).cumAcked ack.cumAck ∧
      Sent m (m.processAckFrame peer ack w).2.1 peer
        (if ack.cumAck > (m.sendState peer).cumAcked then
          Wal.truncateThrough (Wal.storeAck m.storage peer { cumAcked := ack.cumAck }) peer
            ack.cumAck
        else m.storage) s := by
  unfold processAckFrame recordAck sendState
  rw [← initSendState_storage m peer]
  dsimp only
  by_cases hgt : ack.cumAck > (m.initSendState peer).1.cumAcked
  · rw [if_pos hgt, if_pos hgt]
    dsimp only
    split
    · exact sent_exists (sent_setSend m peer _ _) rfl (Nat.max_eq_right (Nat.le_of_lt hgt)).symm
    · exact sent_exists (sent_setSend m peer _ _) rfl (Nat.max_eq_right (Nat.le_of_lt hgt)).symm
  · rw [if_neg hgt, if_neg hgt]
    dsimp only
    split
    · exact sent_exists (sent_setSend m peer _ _) rfl (Nat.max_eq_left (Nat.le_of_not_gt hgt)).symm
    · exact sent_exists (sent_setSend m peer _ _) rfl (Nat.max_eq_left (Nat.le_of_not_gt hgt)).symm

/-- **What `handle_resume` does**: it only spends credits. -/
theorem handleResume_sent [Wal σ] (m : ReliabilityManager σ) (peer : Peer) (resume : ResumeMeta)
    (w : Writer) :
    ∃ s, s.nextMsgId = (m.sendState peer).nextMsgId ∧
      s.cumAcked = (m.sendState peer).cumAcked ∧
      Sent m (m.handleResume peer resume w).2.1 peer m.storage s := by
  unfold handleResume sendState
  rw [← initSendState_storage m peer]
  dsimp only
  cases resume.startingCredits with
  | none =>
    dsimp only
    split
    · exact sent_exists (sent_setSend m peer _ _) rfl rfl
    · exact sent_exists (sent_setSend m peer _ _) rfl rfl
  | some credits =>
    dsimp only
    split
    · exact sent_exists (sent_setSend m peer _ _) rfl rfl
    · exact sent_exists (sent_setSend m peer _ _) rfl rfl

/-- `m'` has the storage `st`, and the receive state `r` for the peer. -/
structure Received (m m' : ReliabilityManager σ) (peer : Peer) (st : σ) (r : RecvState) : Prop where
  storage : m'.storage = st
  recvStates : ∀ q, m'.recvStates.lookup q = if q = peer then some r else m.recvStates.lookup q

theorem Received.recvState_eq [Dedup σ] {m m' : ReliabilityManager σ} {peer : Peer} {st : σ}
    {r : RecvState} (h : Received m m' peer st r) (now : Nat) : m'.recvState now peer = r := by
  unfold recvState initRecvState
  rw [h.recvStates, if_pos rfl]

/-- `init_recv_state` keeps the receive state it gives. -/
theorem received_init [Dedup σ] (m : ReliabilityManager σ) (now : Nat) (peer : Peer) :
    Received m (m.initRecvState now peer).2 peer m.storage (m.recvState now peer) := by
  unfold recvState initRecvState
  cases h : m.recvStates.lookup peer with
  | some r =>
    refine ⟨rfl, fun q => ?_⟩
    by_cases hq : q = peer
    · rw [if_pos hq, hq]
      exact h
    · rw [if_neg hq]
  | none => exact ⟨rfl, fun q => HashMap.lookup_insert_ite ..⟩

/-- Keeping a receive state after `init_recv_state`, with a new storage. -/
theorem received_setRecv [Dedup σ] (m : ReliabilityManager σ) (now : Nat) (peer : Peer) (st : σ)
    (r : RecvState) :
    Received m (setRecv { (m.initRecvState now peer).2 with storage := st } peer r) peer st r := by
  refine ⟨rfl, fun q => ?_⟩
  show (AList.insert peer r (m.initRecvState now peer).2.recvStates).lookup q = _
  rw [HashMap.lookup_insert_ite, (received_init m now peer).recvStates]
  split <;> rfl

/-- The same with the storage as it was. -/
theorem received_keep [Dedup σ] (m : ReliabilityManager σ) (now : Nat) (peer : Peer)
    (r : RecvState) :
    Received m ((m.initRecvState now peer).2.setRecv peer r) peer m.storage r := by
  have h := received_setRecv m now peer (m.initRecvState now peer).2.storage r
  exact ⟨h.storage.trans (received_init m now peer).storage, h.recvStates⟩

/-- What `process_data_frame` keeps: a message that is not recorded as processed is
marked, moves the cached watermark to that of the storage, and is charged for. -/
theorem processDataFrame_kept [Dedup σ] (m : ReliabilityManager σ) (now : Nat) (peer : Peer)
    (msgId : Nat) (payload : Bytes) :
    ∃ r, Received m (m.processDataFrame now peer msgId payload).2 peer
      (if Dedup.isProcessed m.storage peer msgId then m.storage
        else Dedup.markProcessed m.storage peer msgId) r ∧
      r.cumProcessed = (if Dedup.isProcessed m.storage peer msgId then
        (m.recvState now peer).cumProcessed
        else Dedup.cumProcessed (Dedup.markProcessed m.storage peer msgId) peer) ∧
      r.creditsMax = (m.recvState now peer).creditsMax ∧
      r.creditsAvail = (if Dedup.isProcessed m.storage peer msgId then
        (m.recvState now peer).creditsAvail
        else (m.recvState now peer).creditsAvail - payload.length) := by
  have hst := (received_init m now peer).storage
  unfold processDataFrame
  dsimp only
  rw [hst]
  cases hp : Dedup.isProcessed m.storage peer msgId with
  | true =>
    simp only [if_true]
    exact ⟨_, received_keep m now peer _, rfl, rfl, rfl⟩
  | false =>
    simp only [Bool.false_eq_true, if_false]
    exact ⟨_, received_setRecv m now peer _ _, rfl, rfl, rfl⟩

/-- **What `process_data_frame` does**: a message that is not recorded as
processed is marked, reported as new, and moves the cached watermark to that of
the storage. -/
theorem processDataFrame_received [Dedup σ] (m : ReliabilityManager σ) (now : Nat) (peer : Peer)
    (msgId : Nat) (payload : Bytes) :
    (m.processDataFrame now peer msgId payload).1
      = .ok (!Dedup.isProcessed m.storage peer msgId) ∧
    ∃ r, Received m (m.processDataFrame now peer msgId payload).2 peer
      (if Dedup.isProcessed m.storage peer msgId then m.storage
        else Dedup.markProcessed m.storage peer msgId) r ∧
      r.cumProcessed = (if Dedup.isProcessed m.storage peer msgId then
        (m.recvState now peer).cumProcessed
        else Dedup.cumProcessed (Dedup.markProcessed m.storage peer msgId) peer) := by
  obtain ⟨r, hr, hcum, -, -⟩ := processDataFrame_kept m now peer msgId payload
  refine ⟨?_, r, hr, hcum⟩
  have hst := (received_init m now peer).storage
  unfold processDataFrame
  dsimp only
  rw [hst]
  cases Dedup.isProcessed m.storage peer msgId <;> rfl

/-- The state an ACK is built from: credits that are low are all given again. -/
def refreshed (r : RecvState) : RecvState :=
  if r.creditsAvail ≤ (r.creditsMax.toNat : Int) / 2 then
    { r with creditsAvail := r.creditsMax.toNat }
  else r

theorem refreshed_cumProcessed (r : RecvState) : (refreshed r).cumProcessed = r.cumProcessed := by
  unfold refreshed
  split <;> rfl

theorem refreshed_creditsMax (r : RecvState) : (refreshed r).creditsMax = r.creditsMax := by
  unfold refreshed
  split <;> rfl

theorem le_refreshed_creditsAvail (r : RecvState) :
    r.creditsAvail ≤ (refreshed r).creditsAvail := by
  unfold refreshed
  split
  next hlow =>
    dsimp only
    omega
  next => exact Int.le_refl _

theorem maybeBuildAck_eq [Dedup σ] (crates : Crates) (m : ReliabilityManager σ) (now : Nat)
    (peer : Peer) (myNodeId : UInt64) :
    m.maybeBuildAck crates now peer myNodeId
      = if (m.initRecvState now peer).2.shouldAck now (m.recvState now peer) then
          match buildAck crates peer myNodeId (refreshed (m.recvState now peer)) with
          | .error e =>
            (.error e, (m.initRecvState now peer).2.setRecv peer (refreshed (m.recvState now peer)))
          | .ok ackFrame =>
            (.ok (some ackFrame), (m.initRecvState now peer).2.setRecv peer
              { refreshed (m.recvState now peer) with
                ackPending := false, lastAckSent := now, msgsSinceAck := 0 })
        else (.ok none, (m.initRecvState now peer).2) := rfl

/-- What `maybe_build_ack` keeps: of the receive state at most the credits change, to
those of the refreshed state. -/
theorem maybeBuildAck_kept [Dedup σ] (crates : Crates) (m : ReliabilityManager σ) (now : Nat)
    (peer : Peer) (myNodeId : UInt64) :
    ∃ r, Received m (m.maybeBuildAck crates now peer myNodeId).2 peer m.storage r ∧
      r.cumProcessed = (m.recvState now peer).cumProcessed ∧
      r.creditsMax = (m.recvState now peer).creditsMax ∧
      (r.creditsAvail = (m.recvState now peer).creditsAvail ∨
        r.creditsAvail = (refreshed (m.recvState now peer)).creditsAvail) := by
  have hcum := refreshed_cumProcessed (m.recvState now peer)
  have hmax := refreshed_creditsMax (m.recvState now peer)
  rw [maybeBuildAck_eq]
  split
  · split
    · exact ⟨_, received_keep m now peer _, hcum, hmax, Or.inr rfl⟩
    · exact ⟨_, received_keep m now peer _, hcum, hmax, Or.inr rfl⟩
  · exact ⟨_, received_init m now peer, rfl, rfl, Or.inl rfl⟩

/-- **What `maybe_build_ack` does** to storage and watermark: nothing. -/
theorem maybeBuildAck_received [Dedup σ] (crates : Crates) (m : ReliabilityManager σ) (now : Nat)
    (peer : Peer) (myNodeId : UInt64) :
    ∃ r, Received m (m.maybeBuildAck crates now peer myNodeId).2 peer m.storage r ∧
      r.cumProcessed = (m.recvState now peer).cumProcessed := by
  obtain ⟨r, hr, hcum, -, -⟩ := maybeBuildAck_kept crates m now peer myNodeId
  exact ⟨r, hr, hcum⟩

/-- **What `build_resume` does** to storage and watermark: nothing. -/
theorem buildResume_received [Wal σ] [Dedup σ] (crates : Crates) (m : ReliabilityManager σ)
    (now : Nat) (peer : Peer) (myNodeId : UInt64) :
    Received m (m.buildResume crates now peer myNodeId).2 peer m.storage
      (m.recvState now peer) := by
  have hst := initSendState_storage m peer
  have hrecv : (m.initSendState peer).2.recvStates = m.recvStates := by
    unfold initSendState
    split <;> rfl
  have hstate : (m.initSendState peer).2.recvState now peer = m.recvState now peer := by
    unfold recvState initRecvState
    rw [hrecv]
    cases m.recvStates.lookup peer with
    | some r => rfl
    | none =>
      have hwin : (m.initSendState peer).2.defaultRecvWindow = m.defaultRecvWindow := by
        unfold initSendState
        split <;> rfl
      dsimp only
      rw [hst, hwin]
  obtain ⟨h₁, h₂⟩ := received_init (m.initSendState peer).2 now peer
  rw [hst] at h₁
  rw [hrecv, hstate] at h₂
  exact ⟨h₁, h₂⟩

/-- The watermark of a receive state is the one kept, or else the storage's. -/
theorem recvState_cumProcessed_le [Dedup σ] {m : ReliabilityManager σ} {peer : Peer} {n : Nat}
    (hcached : ∀ r, m.recvStates.lookup peer = some r → r.cumProcessed ≤ n)
    (hstored : Dedup.cumProcessed m.storage peer ≤ n) (now : Nat) :
    (m.recvState now peer).cumProcessed ≤ n := by
  unfold recvState initRecvState
  cases h : m.recvStates.lookup peer with
  | some r => exact hcached r h
  | none => exact hstored

end ReliabilityManager

end MeshCore.Session
