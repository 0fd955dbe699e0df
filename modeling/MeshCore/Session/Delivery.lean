import MeshCore.Session.Reliability
import MeshCore.Wire.Frame

/-!
# Delivery: nothing twice, nothing lost

Two results about `ReliabilityManager` on the in-memory backend.

At most once: after a message within the window of its peer was seen, no later
`process_data_frame` for its id reports it as new (`accepted_twice_only_beyond`).
The record of processed ids is `RecordOk` throughout: the remembered ids lie in
the window, and no more ids are recorded than there were calls. An id ahead of
the window is accepted without being recorded, and therefore again
(`accepted_twice_beyond_default_window`).

No loss: a sender and a receiver joined by a network that may lose, duplicate and
reorder. Everything ever sent stays in the network and may be delivered any
number of times, so a run of `Step`s covers all of that. The invariant `Safe`
bounds every watermark there is, cached, stored or in flight, by that of the
receiver's record, and says that all ids the record covers were reported as new.
An id leaves the log only below an acknowledged watermark, hence after it was
delivered (`no_message_lost`).
-/

namespace MeshCore.Session

open MeshCore.Lib MeshCore.Wire MeshCore.Storage ReliabilityManager

/-! ## At most once -/

/-- One call of `process_data_frame`. -/
structure DataCall where
  now : Nat
  peer : Peer
  msgId : Nat
  payload : Bytes

/-- The call made on a manager. -/
def DataCall.run (c : DataCall) (m : ReliabilityManager MemoryStorage) :
    Except ReliabilityError Bool × ReliabilityManager MemoryStorage :=
  m.processDataFrame c.now c.peer c.msgId c.payload

/-- The manager after a sequence of calls. -/
def receiveAll (m : ReliabilityManager MemoryStorage) (calls : List DataCall) :
    ReliabilityManager MemoryStorage :=
  calls.foldl (fun m c => (c.run m).2) m

/-- The record of processed ids of a manager. -/
abbrev recordOf (m : ReliabilityManager MemoryStorage) : DedupTables := m.storage.dedup.tables

/-- What a call does to the record, and what it reports. -/
theorem run_record (c : DataCall) (m : ReliabilityManager MemoryStorage) :
    (c.run m).1 = .ok (!(recordOf m).isProcessed c.peer c.msgId) ∧
    recordOf (c.run m).2 = if (recordOf m).isProcessed c.peer c.msgId then recordOf m
      else (recordOf m).markProcessed c.peer c.msgId := by
  obtain ⟨hres, r, hr, -⟩ := processDataFrame_received m c.now c.peer c.msgId c.payload
  refine ⟨hres, ?_⟩
  rw [recordOf, show (c.run m).2.storage = _ from hr.storage]
  show (if (recordOf m).isProcessed c.peer c.msgId then m.storage else _).dedup.tables = _
  split <;> rfl

/-- A call reports a message as new exactly when its id is not recorded. -/
theorem run_accepts {c : DataCall} {m : ReliabilityManager MemoryStorage} :
    (c.run m).1 = .ok true ↔ (recordOf m).isProcessed c.peer c.msgId = false := by
  rw [(run_record c m).1]
  cases (recordOf m).isProcessed c.peer c.msgId <;> simp

/-- The record of one peer after `count` calls: the remembered ids are within the
window, and there are no more recorded ids than calls. -/
structure RecordOk (windowSize : Nat) (peer : Peer) (count : Nat) (t : DedupTables) : Prop where
  size : t.windowSize = windowSize
  inWindow : t.InWindow peer
  counted : t.cum peer + (t.gaps peer).card ≤ count

theorem RecordOk.mark {windowSize count : Nat} {peer q : Peer} {t : DedupTables}
    (h : RecordOk windowSize peer count t) (msgId : Nat) :
    RecordOk windowSize peer (count + 1) (t.markProcessed q msgId) := by
  have hcount := h.counted
  by_cases hq : peer = q
  · subst hq
    have hcard := t.recorded_card_mark peer msgId
    exact ⟨(t.mark_windowSize ..).trans h.size, h.inWindow.mark msgId, by omega⟩
  · obtain ⟨hcum, hgaps⟩ := t.mark_other hq msgId
    refine ⟨(t.mark_windowSize ..).trans h.size, ?_, ?_⟩
    · unfold DedupTables.InWindow
      rw [hcum, hgaps, t.mark_windowSize]
      exact h.inWindow
    · rw [hcum, hgaps]
      omega

/-- **One call** keeps the record in order, and forgets nothing. -/
theorem RecordOk.run {windowSize count : Nat} {peer : Peer}
    {m : ReliabilityManager MemoryStorage} (h : RecordOk windowSize peer count (recordOf m))
    (hfits : count + 1 + windowSize < 2 ^ 64) (c : DataCall) :
    RecordOk windowSize peer (count + 1) (recordOf (c.run m).2) ∧
    ∀ i, (recordOf m).isProcessed peer i = true →
      (recordOf (c.run m).2).isProcessed peer i = true := by
  rw [(run_record c m).2]
  split
  · exact ⟨⟨h.size, h.inWindow, Nat.le_succ_of_le h.counted⟩, fun i hi => hi⟩
  · have hmark := h.mark (q := c.peer) c.msgId
    refine ⟨hmark, fun i hi => ?_⟩
    by_cases hq : peer = c.peer
    · subst hq
      refine DedupTables.isProcessed_mark_of h.inWindow ?_ hi
      have hcounted := hmark.counted
      rw [h.size]
      omega
    · obtain ⟨hcum, hgaps⟩ := (recordOf m).mark_other hq c.msgId
      rw [DedupTables.isProcessed_iff] at hi ⊢
      rwa [hcum, hgaps]

/-- **A sequence of calls** does so too. -/
theorem RecordOk.after {windowSize count : Nat} {peer : Peer}
    {m : ReliabilityManager MemoryStorage} (h : RecordOk windowSize peer count (recordOf m))
    (calls : List DataCall) (hfits : count + calls.length + windowSize < 2 ^ 64) :
    RecordOk windowSize peer (count + calls.length) (recordOf (receiveAll m calls)) ∧
    ∀ i, (recordOf m).isProcessed peer i = true →
      (recordOf (receiveAll m calls)).isProcessed peer i = true := by
  induction calls generalizing count m with
  | nil => exact ⟨h, fun i hi => hi⟩
  | cons c calls ih =>
    rw [List.length_cons] at hfits ⊢
    obtain ⟨hok, hkeep⟩ := h.run (by omega) c
    obtain ⟨hok', hkeep'⟩ := ih hok (by omega)
    rw [Nat.add_comm calls.length 1, ← Nat.add_assoc]
    exact ⟨hok', fun i hi => hkeep' i (hkeep i hi)⟩

theorem recordOk_new (windowSize : Nat) (peer : Peer) :
    RecordOk windowSize peer 0 (.new windowSize) :=
  ⟨rfl, fun i hi => absurd hi (Finset.notMem_empty i), Nat.le_refl 0⟩

/-- **A message is reported as new twice only if it was beyond the window the
first time**: in any sequence of calls on a fresh manager, if two calls for one
peer and id both report a new message, then at the earlier one the id was neither
the next one nor within the window above the watermark. The watermark is at most
the number of calls, so the sum of watermark and window cannot overflow before
2^64 less the window of them. -/
theorem accepted_twice_only_beyond (windowSize ackInterval : Nat)
    (ackBatchSize defaultRecvWindow : UInt32) (before between : List DataCall) (c d : DataCall)
    (hfits : (before ++ c :: between).length + windowSize < 2 ^ 64)
    (hpeer : d.peer = c.peer) (hid : d.msgId = c.msgId) :
    let m := ReliabilityManager.new (MemoryStorage.new windowSize) ackInterval ackBatchSize
      defaultRecvWindow
    (c.run (receiveAll m before)).1 = .ok true →
    (d.run (receiveAll m (before ++ c :: between))).1 = .ok true →
    (recordOf (receiveAll m before)).cum c.peer + 1 < c.msgId ∧
      (recordOf (receiveAll m before)).cum c.peer + windowSize < c.msgId := by
  intro m hc hd
  rw [List.length_append, List.length_cons] at hfits
  have hok₀ : RecordOk windowSize c.peer 0 (recordOf m) := recordOk_new windowSize c.peer
  obtain ⟨hok, -⟩ := hok₀.after before (by omega)
  by_contra hnear
  -- recorded by the first call, and never forgotten after it
  have hself : (recordOf (c.run (receiveAll m before)).2).isProcessed c.peer c.msgId = true := by
    rw [(run_record c _).2, if_neg (by rw [run_accepts.mp hc]; exact Bool.false_ne_true)]
    have hcounted := hok.counted
    refine DedupTables.isProcessed_mark_self ?_ ?_
    · rw [hok.size]
      omega
    · rw [hok.size]
      omega
  obtain ⟨hokc, -⟩ := hok.run (by omega) c
  have hrest := (hokc.after between (by omega)).2 c.msgId hself
  have hsplit : receiveAll m (before ++ c :: between)
      = receiveAll (c.run (receiveAll m before)).2 between := by
    unfold receiveAll
    rw [List.foldl_append]
    rfl
  rw [run_accepts, hsplit, hpeer, hid, hrest] at hd
  exact Bool.false_ne_true hd.symm

/-- Ids 3, 1 and 3 again: the second 3 is not new. -/
theorem accepted_twice_only_beyond_reordered :
    let m := ReliabilityManager.new (MemoryStorage.new 65536) 0 0 0
    let c : DataCall := { now := 0, peer := 7, msgId := 3, payload := [] }
    (c.run (receiveAll m [])).1 = .ok true ∧
    (c.run (receiveAll m ([] ++ c :: [{ c with msgId := 1 }]))).1 ≠ .ok true := by
  intro m c
  refine ⟨rfl, fun h => ?_⟩
  have := accepted_twice_only_beyond 65536 0 0 0 [] [{ c with msgId := 1 }] c c
    (by decide) rfl rfl rfl h
  exact absurd this (by decide)

/-- With the default window of 65536 and nothing processed, id 65537 is reported
as new each time. -/
theorem accepted_twice_beyond_default_window :
    let m := ReliabilityManager.new
      ({ wal := .new, dedup := .withDefaultWindow } : MemoryStorage) 0 0 0
    let c : DataCall := { now := 0, peer := 7, msgId := 65537, payload := [] }
    (c.run m).1 = .ok true ∧ (c.run (receiveAll m [c])).1 = .ok true :=
  ⟨rfl, rfl⟩

/-! ## No loss -/

/-- The values the ACK of a receive state carries; `credits` is read back with
`as u32`. -/
def ackValues (r : RecvState) : AckMeta :=
  { cumAck := r.cumProcessed, credits := UInt32.ofInt r.creditsAvail }

/-- The values the RESUME of a send and a receive state carries. -/
def resumeValues (s : SendState) (r : RecvState) : ResumeMeta :=
  { resume := true, senderCumAck := s.cumAcked, receiverCumProc := r.cumProcessed
    startingCredits := some r.creditsMax }

/-- A sender, a receiver, everything ever put on the network between them, and
the history: the ids logged for the receiver, and the ids reported as new. -/
structure System where
  sender : ReliabilityManager MemoryStorage
  receiver : ReliabilityManager MemoryStorage
  dataNet : List Bytes
  ackNet : List AckMeta
  resumeNet : List ResumeMeta
  appended : List Nat
  delivered : List Nat

/-- A fresh system; windows and ACK settings are arbitrary. -/
def System.init (sender receiver : ReliabilityManager MemoryStorage) : System :=
  { sender, receiver, dataNet := [], ackNet := [], resumeNet := [], appended := [],
    delivered := [] }

/-- One operation of either side. The network keeps what was sent, so a message
may be received at any later time, any number of times, or never. -/
inductive Step (crates : Crates) (senderId receiverId : UInt64) : System → System → Prop where
  | sendData (s : System) (payload : Bytes) (remaining : Option Nat) :
      Step crates senderId receiverId s
        (let (_, sender, w) := s.sender.sendData crates receiverId senderId payload
          { written := [], remaining }
        { s with
          sender
          dataNet := s.dataNet ++ w.written
          appended := s.appended ++
            ((s.sender.sendAppends crates receiverId senderId payload).map WalEntry.msgId).toList })
  | processDataFrame (s : System) (now : Nat) (bytes : Bytes) (frame : Frame) (rest : Bytes) :
      bytes ∈ s.dataNet → FrameDecoder.new.decode bytes = (.ok (some frame), rest) →
      Step crates senderId receiverId s
        (let (result, receiver) := s.receiver.processDataFrame now senderId frame.fast.msgId.toNat
          frame.payloadOrCipher
        { s with
          receiver
          delivered :=
            match result with
            | .ok true => s.delivered ++ [frame.fast.msgId.toNat]
            | _ => s.delivered })
  | maybeBuildAck (s : System) (now : Nat) :
      Step crates senderId receiverId s
        (let (result, receiver) := s.receiver.maybeBuildAck crates now senderId receiverId
        { s with
          receiver
          ackNet :=
            match result with
            | .ok (some _) => s.ackNet ++ [ackValues (receiver.recvState now senderId)]
            | _ => s.ackNet })
  | processAckFrame (s : System) (ack : AckMeta) (remaining : Option Nat) :
      ack ∈ s.ackNet →
      Step crates senderId receiverId s
        (let (_, sender, w) := s.sender.processAckFrame receiverId ack { written := [], remaining }
        { s with sender, dataNet := s.dataNet ++ w.written })
  | buildResume (s : System) (now : Nat) :
      Step crates senderId receiverId s
        (let (result, receiver) := s.receiver.buildResume crates now senderId receiverId
        { s with
          receiver
          resumeNet :=
            match result with
            | .ok _ => s.resumeNet ++
                [resumeValues (receiver.sendState senderId) (receiver.recvState now senderId)]
            | .error _ => s.resumeNet })
  | handleResume (s : System) (resume : ResumeMeta) (remaining : Option Nat) :
      resume ∈ s.resumeNet →
      Step crates senderId receiverId s
        (let (_, sender, w) := s.sender.handleResume receiverId resume { written := [], remaining }
        { s with sender, dataNet := s.dataNet ++ w.written })

/-- The states of a system that starts fresh. -/
inductive SystemReachable (crates : Crates) (senderId receiverId : UInt64) : System → Prop where
  | init (w₁ w₂ i₁ i₂ : Nat) (b₁ b₂ r₁ r₂ : UInt32) :
      SystemReachable crates senderId receiverId
        (.init (.new (.new w₁) i₁ b₁ r₁) (.new (.new w₂) i₂ b₂ r₂))
  | step {s s' : System} : SystemReachable crates senderId receiverId s →
      Step crates senderId receiverId s s' → SystemReachable crates senderId receiverId s'

/-- The receiver's half: the record of the sender's messages. -/
structure RecvSafe (senderId : UInt64) (receiver : ReliabilityManager MemoryStorage)
    (delivered : List Nat) : Prop where
  cached : ∀ r, receiver.recvStates.lookup senderId = some r →
    r.cumProcessed ≤ (recordOf receiver).cum senderId
  recorded : ∀ i, 1 ≤ i →
    i ≤ (recordOf receiver).cum senderId ∨ i ∈ (recordOf receiver).gaps senderId → i ∈ delivered

/-- The sender's half: what it knows to be acknowledged, and what it has logged,
against a bound on the watermarks. -/
structure SendSafe (receiverId : UInt64) (sender : ReliabilityManager MemoryStorage)
    (appended delivered : List Nat) (bound : Nat) : Prop where
  acked : (sender.sendState receiverId).cumAcked ≤ bound
  next_pos : 1 ≤ (sender.sendState receiverId).nextMsgId
  appended_pos : ∀ i ∈ appended, 1 ≤ i
  logged : ∀ i ∈ appended,
    (∃ e ∈ sender.storage.wal.entriesOf receiverId, e.msgId = i) ∨ i ∈ delivered

/-- The invariant of a run. -/
structure Safe (senderId receiverId : UInt64) (s : System) : Prop where
  recv : RecvSafe senderId s.receiver s.delivered
  send : SendSafe receiverId s.sender s.appended s.delivered ((recordOf s.receiver).cum senderId)
  acks : ∀ ack ∈ s.ackNet, ack.cumAck ≤ (recordOf s.receiver).cum senderId

/-! ### The receiver's operations -/

/-- An operation that leaves the storage alone and caches no higher watermark. -/
theorem RecvSafe.keep {senderId : UInt64} {m m' : ReliabilityManager MemoryStorage}
    {delivered : List Nat} {r : RecvState} (h : RecvSafe senderId m delivered)
    (hr : Received m m' senderId m.storage r)
    (hcum : r.cumProcessed ≤ (recordOf m).cum senderId) :
    RecvSafe senderId m' delivered ∧ recordOf m' = recordOf m := by
  have heq : recordOf m' = recordOf m := by rw [recordOf, hr.storage]
  refine ⟨⟨fun r' hr' => ?_, ?_⟩, heq⟩
  · rw [hr.recvStates, if_pos rfl] at hr'
    obtain rfl := Option.some.inj hr'
    rw [heq]
    exact hcum
  · rw [heq]
    exact h.recorded

/-- The watermark a receive state is given is at most that of the record. -/
theorem RecvSafe.recvState_le {senderId : UInt64} {m : ReliabilityManager MemoryStorage}
    {delivered : List Nat} (h : RecvSafe senderId m delivered) (now : Nat) :
    (m.recvState now senderId).cumProcessed ≤ (recordOf m).cum senderId :=
  recvState_cumProcessed_le h.cached (Nat.le_refl _) now

/-- `process_data_frame`, with the history it makes. -/
theorem RecvSafe.processDataFrame {senderId : UInt64} {m : ReliabilityManager MemoryStorage}
    {delivered : List Nat} (h : RecvSafe senderId m delivered) (now msgId : Nat)
    (payload : Bytes) :
    let out := m.processDataFrame now senderId msgId payload
    RecvSafe senderId out.2
      (match out.1 with
        | .ok true => delivered ++ [msgId]
        | _ => delivered) ∧
    (recordOf m).cum senderId ≤ (recordOf out.2).cum senderId := by
  intro out
  obtain ⟨hres, r, hr, hcum⟩ := processDataFrame_received m now senderId msgId payload
  rw [show out.1 = _ from hres]
  cases hp : Dedup.isProcessed m.storage senderId msgId with
  | true =>
    simp only [hp, if_true] at hr hcum
    obtain ⟨hsafe, heq⟩ := h.keep hr (hcum ▸ h.recvState_le now)
    exact ⟨hsafe, by rw [heq]⟩
  | false =>
    simp only [hp, Bool.false_eq_true, if_false] at hr hcum
    have heq : recordOf out.2 = (recordOf m).markProcessed senderId msgId := by
      rw [recordOf, hr.storage]
      rfl
    refine ⟨⟨fun r' hr' => ?_, fun i hi hrec => ?_⟩, ?_⟩
    · rw [hr.recvStates, if_pos rfl] at hr'
      obtain rfl := Option.some.inj hr'
      rw [heq]
      exact Nat.le_of_eq hcum
    · -- an id is recorded now because it was before, or because it is the new one
      show i ∈ delivered ++ [msgId]
      rw [heq] at hrec
      rcases DedupTables.recorded_of_mark hrec with hold | hold | rfl
      · exact List.mem_append_left _ (h.recorded i hi (Or.inl hold))
      · exact List.mem_append_left _ (h.recorded i hi (Or.inr hold))
      · exact List.mem_append_right _ (List.mem_singleton.mpr rfl)
    · rw [heq]
      exact (recordOf m).cum_le_mark senderId msgId

/-! ### The sender's operations -/

theorem SendSafe.mono {receiverId : UInt64} {m : ReliabilityManager MemoryStorage}
    {appended delivered delivered' : List Nat} {bound bound' : Nat}
    (h : SendSafe receiverId m appended delivered bound) (hd : delivered ⊆ delivered')
    (hb : bound ≤ bound') : SendSafe receiverId m appended delivered' bound' :=
  ⟨Nat.le_trans h.acked hb, h.next_pos, h.appended_pos,
    fun i hi => (h.logged i hi).imp id fun hdi => hd hdi⟩

/-- `send_data`: the id it logs joins the history, and is in the log. -/
theorem SendSafe.sendData {receiverId : UInt64} {m : ReliabilityManager MemoryStorage}
    {appended delivered : List Nat} {bound : Nat}
    (h : SendSafe receiverId m appended delivered bound) (crates : Crates) (senderId : UInt64)
    (payload : Bytes) (w : Writer) :
    SendSafe receiverId (m.sendData crates receiverId senderId payload w).2.1
      (appended ++ ((m.sendAppends crates receiverId senderId payload).map WalEntry.msgId).toList)
      delivered bound := by
  obtain ⟨s, hnext, hacked, hsent⟩ := sendData_sent crates m receiverId senderId payload w
  have hstate := hsent.sendState_eq
  have hst := hsent.storage
  cases happ : m.sendAppends crates receiverId senderId payload with
  | none =>
    rw [happ] at hst
    dsimp only at hst
    simp only [Option.map_none, Option.toList_none, List.append_nil]
    exact ⟨by rw [hstate, hacked]; exact h.acked, by rw [hstate, hnext]; omega, h.appended_pos,
      by rw [hst]; exact h.logged⟩
  | some entry =>
    rw [happ] at hst
    have hentries : ∀ e,
        e ∈ (m.sendData crates receiverId senderId payload w).2.1.storage.wal.entriesOf receiverId ↔
          e ∈ m.storage.wal.entriesOf receiverId ∨ e = entry := by
      intro e
      rw [hst]
      show e ∈ (m.storage.wal.append receiverId entry).entriesOf receiverId ↔ _
      rw [MemoryWal.entriesOf_append, if_pos rfl, List.mem_append, List.mem_singleton]
    have hid : 1 ≤ entry.msgId := by
      have : entry.msgId = (m.sendState receiverId).nextMsgId := by
        unfold sendAppends at happ
        split at happ
        · rw [← Option.some.inj happ]
        · exact absurd happ (by simp)
      rw [this]
      exact h.next_pos
    simp only [Option.map_some, Option.toList_some]
    refine ⟨by rw [hstate, hacked]; exact h.acked, by rw [hstate, hnext]; omega,
      fun i hi => ?_, fun i hi => ?_⟩
    · rcases List.mem_append.mp hi with hold | hnew
      · exact h.appended_pos i hold
      · rw [List.mem_singleton.mp hnew]
        exact hid
    · rcases List.mem_append.mp hi with hold | hnew
      · refine (h.logged i hold).imp (fun ⟨e, he, hei⟩ => ?_) id
        exact ⟨e, (hentries e).mpr (Or.inl he), hei⟩
      · exact Or.inl ⟨entry, (hentries entry).mpr (Or.inr rfl), (List.mem_singleton.mp hnew).symm⟩

/-- `process_ack_frame` with a watermark within the bound: what leaves the log has
been delivered. -/
theorem SendSafe.processAckFrame {receiverId : UInt64} {m : ReliabilityManager MemoryStorage}
    {appended delivered : List Nat} {bound : Nat}
    (h : SendSafe receiverId m appended delivered bound)
    (hbelow : ∀ i, 1 ≤ i → i ≤ bound → i ∈ delivered) {ack : AckMeta} (hack : ack.cumAck ≤ bound)
    (w : Writer) :
    SendSafe receiverId (m.processAckFrame receiverId ack w).2.1 appended delivered bound := by
  obtain ⟨s, hnext, hacked, hsent⟩ := processAckFrame_sent m receiverId ack w
  have hstate := hsent.sendState_eq
  have hst := hsent.storage
  have hle : s.cumAcked ≤ bound := by
    rw [hacked]
    exact Nat.max_le.mpr ⟨h.acked, hack⟩
  refine ⟨by rw [hstate]; exact hle, by rw [hstate, hnext]; exact h.next_pos, h.appended_pos,
    fun i hi => ?_⟩
  rw [hst]
  by_cases hgt : ack.cumAck > (m.sendState receiverId).cumAcked
  · rw [if_pos hgt]
    rcases h.logged i hi with ⟨e, he, hei⟩ | hdel
    · -- an entry leaves the log exactly if the ACK covers it
      by_cases hcut : i ≤ ack.cumAck
      · exact Or.inr (hbelow i (h.appended_pos i hi) (Nat.le_trans hcut hack))
      · refine Or.inl ⟨e, ?_, hei⟩
        show e ∈ ((m.storage.wal.storeAck receiverId _).truncateThrough receiverId
          ack.cumAck).entriesOf receiverId
        rw [MemoryWal.entriesOf_truncateThrough, if_pos rfl, List.mem_filter]
        exact ⟨he, by simpa [hei] using Nat.lt_of_not_le hcut⟩
    · exact Or.inr hdel
  · rw [if_neg hgt]
    exact h.logged i hi

/-- `handle_resume` changes neither the log nor the watermark. -/
theorem SendSafe.handleResume {receiverId : UInt64} {m : ReliabilityManager MemoryStorage}
    {appended delivered : List Nat} {bound : Nat}
    (h : SendSafe receiverId m appended delivered bound) (resume : ResumeMeta) (w : Writer) :
    SendSafe receiverId (m.handleResume receiverId resume w).2.1 appended delivered bound := by
  obtain ⟨s, hnext, hacked, hsent⟩ := handleResume_sent m receiverId resume w
  have hstate := hsent.sendState_eq
  exact ⟨by rw [hstate, hacked]; exact h.acked, by rw [hstate, hnext]; exact h.next_pos,
    h.appended_pos, by rw [hsent.storage]; exact h.logged⟩

/-! ### Runs -/

/-- **One step** keeps the invariant. -/
theorem Safe.step {crates : Crates} {senderId receiverId : UInt64} {s s' : System}
    (h : Safe senderId receiverId s) (hs : Step crates senderId receiverId s s') :
    Safe senderId receiverId s' := by
  cases hs with
  | sendData payload remaining =>
    exact ⟨h.recv, h.send.sendData crates senderId payload _, h.acks⟩
  | processDataFrame now bytes frame rest hmem hdec =>
    obtain ⟨hrecv, hle⟩ := h.recv.processDataFrame now frame.fast.msgId.toNat frame.payloadOrCipher
    refine ⟨hrecv, h.send.mono (fun i hi => ?_) hle,
      fun ack hack => Nat.le_trans (h.acks ack hack) hle⟩
    dsimp only
    split
    · exact List.mem_append_left _ hi
    · exact hi
  | maybeBuildAck now =>
    obtain ⟨r, hr, hcum⟩ := maybeBuildAck_received crates s.receiver now senderId receiverId
    have hle : r.cumProcessed ≤ (recordOf s.receiver).cum senderId :=
      hcum ▸ h.recv.recvState_le now
    obtain ⟨hrecv, heq⟩ := h.recv.keep hr hle
    refine ⟨hrecv, by dsimp only; rw [heq]; exact h.send, fun ack hack => ?_⟩
    dsimp only at hack ⊢
    rw [heq]
    split at hack
    · rcases List.mem_append.mp hack with hold | hnew
      · exact h.acks ack hold
      · rw [List.mem_singleton.mp hnew, hr.recvState_eq]
        exact hle
    · exact h.acks ack hack
  | processAckFrame ack remaining hmem =>
    -- what an ACK in flight covers has been delivered, however old it is
    refine ⟨h.recv, h.send.processAckFrame (fun i hi hle => ?_) (h.acks ack hmem) _, h.acks⟩
    exact h.recv.recorded i hi (Or.inl hle)
  | buildResume now =>
    have hr := buildResume_received crates s.receiver now senderId receiverId
    obtain ⟨hrecv, heq⟩ := h.recv.keep hr (h.recv.recvState_le now)
    exact ⟨hrecv, by dsimp only; rw [heq]; exact h.send, by dsimp only; rw [heq]; exact h.acks⟩
  | handleResume resume remaining hmem =>
    exact ⟨h.recv, h.send.handleResume resume _, h.acks⟩

/-- **Every reachable state** satisfies the invariant. -/
theorem SystemReachable.safe {crates : Crates} {senderId receiverId : UInt64} {s : System}
    (h : SystemReachable crates senderId receiverId s) : Safe senderId receiverId s := by
  induction h with
  | init w₁ w₂ i₁ i₂ b₁ b₂ r₁ r₂ =>
    refine ⟨⟨fun r hr => absurd hr (Option.some_ne_none r).symm, fun i hi hrec => ?_⟩,
      ⟨Nat.le_refl _, Nat.le_refl _, fun i hi => absurd hi (List.not_mem_nil),
        fun i hi => absurd hi (List.not_mem_nil)⟩, fun ack hack => absurd hack (List.not_mem_nil)⟩
    rcases hrec with hle | hmem
    · have : i ≤ 0 := hle
      omega
    · exact absurd hmem (Finset.notMem_empty i)
  | step _ hs ih => exact ih.step hs

/-- **No message is lost.** In every reachable state the sender's acknowledged
watermark is at most the receiver's record, and every id ever logged for the
receiver is still in the log or was reported as new. -/
theorem no_message_lost {crates : Crates} {senderId receiverId : UInt64} {s : System}
    (h : SystemReachable crates senderId receiverId s) :
    (s.sender.sendState receiverId).cumAcked ≤ s.receiver.storage.dedup.tables.cum senderId ∧
    ∀ i ∈ s.appended, (∃ e ∈ s.sender.storage.wal.entriesOf receiverId, e.msgId = i) ∨
      i ∈ s.delivered :=
  ⟨h.safe.send.acked, h.safe.send.logged⟩

/-- The DATA frame of the first message from node 1 to node 2. -/
def firstFrame (payload : Bytes) : Frame :=
  .new (.new .data 1 2 1)
    (cborEncode (.map [(.text "content-type", .text "application/x-data")])) payload

/-- A message is queued for want of credits, sent after a RESUME, processed, and
leaves the log when it is acknowledged. -/
theorem no_message_lost_acknowledged :
    ∃ s, SystemReachable .standard 1 2 s ∧ s.appended = [1] ∧ s.delivered = [1] ∧
      s.sender.storage.wal.entriesOf 2 = [] ∧
      (s.sender.sendState 2).cumAcked ≤ s.receiver.storage.dedup.tables.cum 1 ∧
      ∀ i ∈ s.appended, (∃ e ∈ s.sender.storage.wal.entriesOf 2, e.msgId = i) ∨
        i ∈ s.delivered := by
  have h₀ : SystemReachable .standard 1 2 _ := .init 8 8 0 0 1 1 1000 1000
  have h₁ := h₀.step (Step.sendData _ [1, 2, 3] none)
  have h₂ := h₁.step (Step.buildResume _ 0)
  have h₃ := h₂.step (Step.handleResume _ ⟨true, 0, 0, some 1000⟩ none (by decide +kernel))
  have h₄ := h₃.step (Step.processDataFrame _ 0 (firstFrame [1, 2, 3]).bytes
    (firstFrame [1, 2, 3]) [] (by decide +kernel) (by rfl))
  have h₅ := h₄.step (Step.maybeBuildAck _ 0)
  have h₆ := h₅.step (Step.processAckFrame _ ⟨1, 997⟩ none (by decide +kernel))
  exact ⟨_, h₆, by decide +kernel, by decide +kernel, by decide +kernel, no_message_lost h₆⟩

end MeshCore.Session
