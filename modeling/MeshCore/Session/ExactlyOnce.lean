import MeshCore.Session.Exchange

/-!
# The reliability layer is a mailbox

A sender and a receiver on a network that may lose, duplicate and reorder what they write.
While the sender is not more than the receiver's window ahead, each step is a step of a
mailbox (`Inv.step_mailbox`): what is reported has been sent, with this payload, and is
reported once.

Losses are made good by a RESUME: the entries above the receiver's watermark are written
again as far as the credits go. Once each frame that one RESUME with enough credits has
written has been processed, whatever else happens before, between and after, everything
posted before it has been reported (`Inv.recover`, `exactly_once`).
-/

namespace MeshCore.Session

open MeshCore.Lib MeshCore.Wire MeshCore.Storage ReliabilityManager

/-! ## Every operation keeps the invariant -/

namespace Exchange

variable {crates : Crates} {senderId receiverId : UInt64} {windowSize : Nat} {x : Exchange}

theorem posts_sendData (s : System) (payload : Bytes) (remaining : Option Nat) :
    posts crates senderId receiverId s (.sendData payload remaining)
      = (s.sender.sendAppends crates receiverId senderId payload).map fun e => (e.msgId, payload) :=
  rfl

/-- What a frame carries, it carries on. -/
theorem Carries.step {msgId : Nat} {bytes : Bytes}
    (h : Carries crates senderId receiverId x msgId bytes) (op : SystemOp) :
    Carries crates senderId receiverId (x.step crates senderId receiverId op) msgId bytes :=
  h.imp fun _ hp => ⟨List.mem_append_left _ hp.1, hp.2⟩

/-- The entry `send_data` logs carries its message. -/
theorem carries_sendData {payload : Bytes} {remaining : Option Nat} {entry : WalEntry}
    (hentry : x.system.sender.sendAppends crates receiverId senderId payload = some entry) :
    Carries crates senderId receiverId
      (x.step crates senderId receiverId (.sendData payload remaining)) entry.msgId
      entry.bytes := by
  refine ⟨payload, List.mem_append_right _ ?_, ?_⟩
  · rw [posts_sendData, hentry]
    exact List.mem_singleton_self _
  · unfold sendAppends at hentry
    split at hentry
    next hbuild =>
      rw [← Option.some.inj hentry]
      exact hbuild
    next => exact absurd hentry (by simp)

theorem sendAppends_msgId {payload : Bytes} {entry : WalEntry}
    (hentry : x.system.sender.sendAppends crates receiverId senderId payload = some entry) :
    entry.msgId = x.nextMsgId receiverId := by
  unfold sendAppends at hentry
  split at hentry
  · rw [← Option.some.inj hentry]
    rfl
  · exact absurd hentry (by simp)

/-- The ids the receiver has recorded are below the sender's next one. -/
theorem Inv.recorded_lt (h : Inv crates senderId receiverId windowSize x) {i : Nat} (hi : 1 ≤ i)
    (hrec : i ≤ x.watermark senderId ∨ i ∈ (recordOf x.system.receiver).gaps senderId) :
    i ∈ x.taken.map Prod.fst ∧ i < x.nextMsgId receiverId := by
  have hmem : i ∈ x.taken.map Prod.fst :=
    h.receives.delivered ▸ h.safe.recv.recorded i hi hrec
  obtain ⟨e, he, rfl⟩ := List.mem_map.mp hmem
  exact ⟨hmem, h.sends.below e (h.receives.posted e he)⟩

theorem Inv.watermark_lt (h : Inv crates senderId receiverId windowSize x) :
    x.watermark senderId < x.nextMsgId receiverId := by
  by_contra hle
  have hpos : 1 ≤ x.nextMsgId receiverId := h.safe.send.next_pos
  exact absurd (h.recorded_lt hpos (.inl (Nat.le_of_not_lt hle))).2 (Nat.lt_irrefl _)

theorem Inv.safe_step (h : Inv crates senderId receiverId windowSize x) (op : SystemOp) :
    Safe senderId receiverId (x.step crates senderId receiverId op).system :=
  h.safe.next op

theorem Inv.msgId_pos (h : Inv crates senderId receiverId windowSize x) {e : Nat × Bytes}
    (he : e ∈ x.posted) : 1 ≤ e.1 :=
  h.safe.send.appended_pos e.1 (h.sends.appended ▸ List.mem_map_of_mem he)

/-- What the sender does keeps the receiver's half. -/
theorem Receives.of_sender {x' : Exchange} (h : Receives senderId windowSize x)
    (hreceiver : x'.system.receiver = x.system.receiver)
    (hdelivered : x'.system.delivered = x.system.delivered)
    (hresumes : x'.system.resumeNet = x.system.resumeNet) (htaken : x'.taken = x.taken)
    (hposted : x.posted ⊆ x'.posted) : Receives senderId windowSize x' where
  delivered := by rw [htaken, hdelivered, h.delivered]
  posted e he := hposted (h.posted e (htaken ▸ he))
  size := hreceiver ▸ h.size
  inWindow := hreceiver ▸ h.inWindow
  recorded e he := by
    rw [hreceiver]
    exact h.recorded e (htaken ▸ he)
  resumes r hr := by
    unfold watermark
    rw [hreceiver]
    exact h.resumes r (hresumes ▸ hr)

/-- What the receiver does keeps the sender's half. -/
theorem Sends.of_receiver {x' : Exchange} (h : Sends crates senderId receiverId x)
    (hsender : x'.system.sender = x.system.sender) (hnet : x'.system.dataNet = x.system.dataNet)
    (happended : x'.system.appended = x.system.appended) (hposted : x'.posted = x.posted) :
    Sends crates senderId receiverId x' := by
  have hcarries : ∀ msgId bytes, Carries crates senderId receiverId x msgId bytes →
      Carries crates senderId receiverId x' msgId bytes := by
    intro msgId bytes hc
    unfold Carries
    rw [hposted]
    exact hc
  refine ⟨by rw [hposted, happended, h.appended], fun e he => ?_, fun e he => ?_, fun f hf => ?_,
    fun bytes hb => ?_⟩
  · unfold nextMsgId
    rw [hsender]
    exact h.below e (hposted ▸ he)
  · exact hcarries _ _ (h.log e (hsender ▸ he))
  · exact (h.pending f (hsender ▸ hf)).imp fun _ => hcarries _ _
  · exact (h.net bytes (hnet ▸ hb)).imp fun _ => hcarries _ _

/-- `send_data`. -/
theorem Sends.sendData (h : Sends crates senderId receiverId x) (payload : Bytes)
    (remaining : Option Nat) : Sends crates senderId receiverId
      (x.step crates senderId receiverId (.sendData payload remaining)) := by
  obtain ⟨s, hnext, -, hsent⟩ :=
    sendData_sent crates x.system.sender receiverId senderId payload { written := [], remaining }
  have hnext' : (x.step crates senderId receiverId (.sendData payload remaining)).nextMsgId
      receiverId = x.nextMsgId receiverId + 1 :=
    (congrArg SendState.nextMsgId hsent.sendState_eq).trans hnext
  obtain ⟨hwritten, hpending⟩ :=
    sendData_frames x.system.sender receiverId { written := [], remaining } crates senderId payload
  have hnew : ∀ {entry},
      x.system.sender.sendAppends crates receiverId senderId payload = some entry →
      Carries crates senderId receiverId
        (x.step crates senderId receiverId (.sendData payload remaining)) entry.msgId entry.bytes :=
    carries_sendData
  refine ⟨?_, fun e he => ?_, fun e he => ?_, fun f hf => ?_, fun bytes hb => ?_⟩
  · show (x.posted ++ _).map Prod.fst = x.system.appended ++ _
    rw [List.map_append, h.appended, posts_sendData]
    cases x.system.sender.sendAppends crates receiverId senderId payload <;> rfl
  · rw [hnext']
    rcases List.mem_append.mp he with he | he
    · exact Nat.lt_succ_of_lt (h.below e he)
    · rw [posts_sendData, Option.mem_toList] at he
      obtain ⟨entry, hentry, rfl⟩ := Option.map_eq_some_iff.mp he
      exact Nat.lt_succ_of_le (Nat.le_of_eq (sendAppends_msgId hentry))
  · rcases sendData_log he with hold | hentry
    · exact (h.log e hold).step _
    · exact hnew hentry
  · rcases hpending f hf with hold | ⟨entry, hentry, hbytes⟩
    · exact (h.pending f hold).imp fun _ hc => hc.step _
    · exact ⟨_, hbytes ▸ hnew hentry⟩
  · rcases List.mem_append.mp hb with hold | hb
    · exact (h.net bytes hold).imp fun _ hc => hc.step _
    · rcases hwritten bytes hb with hnil | ⟨entry, hentry, hbytes⟩
      · exact absurd hnil List.not_mem_nil
      · exact ⟨_, hbytes ▸ hnew hentry⟩

/-- An operation that only writes frames it has. -/
theorem Sends.of_writes {x' : Exchange} (h : Sends crates senderId receiverId x)
    (hposted : x'.posted = x.posted) (happended : x'.system.appended = x.system.appended)
    (hnext : x'.nextMsgId receiverId = x.nextMsgId receiverId)
    (hlog : ∀ e ∈ x'.system.sender.storage.wal.entriesOf receiverId,
      e ∈ x.system.sender.storage.wal.entriesOf receiverId)
    (hpending : ∀ f ∈ (x'.system.sender.sendState receiverId).pendingFrames,
      f ∈ (x.system.sender.sendState receiverId).pendingFrames)
    (hnet : ∀ bytes ∈ x'.system.dataNet, bytes ∈ x.system.dataNet ∨
      (∃ f ∈ (x.system.sender.sendState receiverId).pendingFrames, f.2 = bytes) ∨
      ∃ e ∈ x.system.sender.storage.wal.entriesOf receiverId, e.bytes = bytes) :
    Sends crates senderId receiverId x' := by
  have hcarries : ∀ msgId bytes, Carries crates senderId receiverId x msgId bytes →
      Carries crates senderId receiverId x' msgId bytes := by
    intro msgId bytes hc
    unfold Carries
    rw [hposted]
    exact hc
  refine ⟨by rw [hposted, happended, h.appended], fun e he => ?_, fun e he => ?_, fun f hf => ?_,
    fun bytes hb => ?_⟩
  · rw [hnext]
    exact h.below e (hposted ▸ he)
  · exact hcarries _ _ (h.log e (hlog e he))
  · exact (h.pending f (hpending f hf)).imp fun _ => hcarries _ _
  · rcases hnet bytes hb with hold | ⟨f, hf, rfl⟩ | ⟨e, he, rfl⟩
    · exact (h.net bytes hold).imp fun _ => hcarries _ _
    · exact (h.pending f hf).imp fun _ => hcarries _ _
    · exact ⟨_, hcarries _ _ (h.log e he)⟩

theorem next_processAckFrame {s : System} {ack : AckMeta} {remaining : Option Nat}
    (hmem : ack ∈ s.ackNet) :
    s.next crates senderId receiverId (.processAckFrame ack remaining)
      = { s with
          sender := (s.sender.processAckFrame receiverId ack ⟨[], remaining⟩).2.1
          dataNet := s.dataNet ++
            (s.sender.processAckFrame receiverId ack ⟨[], remaining⟩).2.2.written } :=
  if_pos hmem

/-- `process_ack_frame`. -/
theorem Sends.processAckFrame (h : Sends crates senderId receiverId x) (ack : AckMeta)
    (remaining : Option Nat) : Sends crates senderId receiverId
      (x.step crates senderId receiverId (.processAckFrame ack remaining)) := by
  have hposted : (x.step crates senderId receiverId (.processAckFrame ack remaining)).posted
      = x.posted := List.append_nil _
  by_cases hmem : ack ∈ x.system.ackNet
  · have hsystem : x.system.next crates senderId receiverId (.processAckFrame ack remaining) = _ :=
      next_processAckFrame hmem
    obtain ⟨s, hnext, -, hsent⟩ :=
      processAckFrame_sent x.system.sender receiverId ack { written := [], remaining }
    obtain ⟨hwritten, hpending⟩ :=
      processAckFrame_frames x.system.sender receiverId { written := [], remaining } ack
    refine h.of_writes hposted ?_ ?_ ?_ ?_ ?_
    · exact (congrArg System.appended hsystem).trans rfl
    · unfold nextMsgId Exchange.step
      rw [hsystem]
      exact (congrArg SendState.nextMsgId hsent.sendState_eq).trans hnext
    · unfold Exchange.step
      rw [hsystem]
      exact fun e he => processAckFrame_log he
    · unfold Exchange.step
      rw [hsystem]
      exact hpending
    · unfold Exchange.step
      rw [hsystem]
      intro bytes hb
      rcases List.mem_append.mp hb with hold | hb
      · exact .inl hold
      · rcases hwritten bytes hb with hnil | hf
        · exact absurd hnil List.not_mem_nil
        · exact .inr (.inl hf)
  · have hsystem : x.system.next crates senderId receiverId (.processAckFrame ack remaining)
        = x.system := if_neg hmem
    exact h.of_receiver (congrArg System.sender hsystem) (congrArg System.dataNet hsystem)
      (congrArg System.appended hsystem) hposted

theorem next_handleResume {s : System} {resume : ResumeMeta} {remaining : Option Nat}
    (hmem : resume ∈ s.resumeNet) :
    s.next crates senderId receiverId (.handleResume resume remaining)
      = { s with
          sender := (s.sender.handleResume receiverId resume ⟨[], remaining⟩).2.1
          dataNet := s.dataNet ++
            (s.sender.handleResume receiverId resume ⟨[], remaining⟩).2.2.written } :=
  if_pos hmem

/-- `handle_resume`. -/
theorem Sends.handleResume (h : Sends crates senderId receiverId x) (resume : ResumeMeta)
    (remaining : Option Nat) : Sends crates senderId receiverId
      (x.step crates senderId receiverId (.handleResume resume remaining)) := by
  have hposted : (x.step crates senderId receiverId (.handleResume resume remaining)).posted
      = x.posted := List.append_nil _
  by_cases hmem : resume ∈ x.system.resumeNet
  · have hsystem : x.system.next crates senderId receiverId (.handleResume resume remaining) = _ :=
      next_handleResume hmem
    obtain ⟨s, hnext, -, hsent⟩ :=
      handleResume_sent x.system.sender receiverId resume { written := [], remaining }
    obtain ⟨hwritten, hpending⟩ :=
      handleResume_frames x.system.sender receiverId { written := [], remaining } resume
    refine h.of_writes hposted ?_ ?_ ?_ ?_ ?_
    · exact (congrArg System.appended hsystem).trans rfl
    · unfold nextMsgId Exchange.step
      rw [hsystem]
      exact (congrArg SendState.nextMsgId hsent.sendState_eq).trans hnext
    · unfold Exchange.step
      rw [hsystem]
      dsimp only
      rw [hsent.storage]
      exact fun e he => he
    · unfold Exchange.step
      rw [hsystem]
      dsimp only
      rw [hpending]
      exact fun f hf => hf
    · unfold Exchange.step
      rw [hsystem]
      intro bytes hb
      rcases List.mem_append.mp hb with hold | hb
      · exact .inl hold
      · rcases hwritten bytes hb with hnil | ⟨e, he, heq⟩
        · exact absurd hnil List.not_mem_nil
        · rw [entriesAbove_memory] at he
          exact .inr (.inr ⟨e, (List.mem_filter.mp he).1, heq⟩)
  · have hsystem : x.system.next crates senderId receiverId (.handleResume resume remaining)
        = x.system := if_neg hmem
    exact h.of_receiver (congrArg System.sender hsystem) (congrArg System.dataNet hsystem)
      (congrArg System.appended hsystem) hposted

/-- An operation of the receiver that records nothing. -/
theorem Receives.of_record {x' : Exchange} (h : Receives senderId windowSize x)
    (hrecord : recordOf x'.system.receiver = recordOf x.system.receiver)
    (hdelivered : x'.system.delivered = x.system.delivered) (htaken : x'.taken = x.taken)
    (hposted : x'.posted = x.posted)
    (hresumes : ∀ r ∈ x'.system.resumeNet, r.receiverCumProc ≤ x.watermark senderId) :
    Receives senderId windowSize x' where
  delivered := by rw [htaken, hdelivered, h.delivered]
  posted e he := hposted ▸ h.posted e (htaken ▸ he)
  size := hrecord ▸ h.size
  inWindow := hrecord ▸ h.inWindow
  recorded e he := by
    rw [hrecord]
    exact h.recorded e (htaken ▸ he)
  resumes r hr := by
    unfold watermark
    rw [hrecord]
    exact hresumes r hr

/-- `maybe_build_ack`. -/
theorem Inv.maybeBuildAck (h : Inv crates senderId receiverId windowSize x) (now : Nat) :
    Inv crates senderId receiverId windowSize
      (x.step crates senderId receiverId (.maybeBuildAck now)) := by
  obtain ⟨r, hr, hcum⟩ := maybeBuildAck_received crates x.system.receiver now senderId receiverId
  have hrecord := (h.safe.recv.keep hr (hcum ▸ h.safe.recv.recvState_le now)).2
  exact ⟨h.safe_step _, h.sends.of_receiver rfl rfl rfl (List.append_nil _),
    h.receives.of_record hrecord rfl (List.append_nil _) (List.append_nil _) h.receives.resumes⟩

/-- `build_resume`: its watermark is that of the record, or an older one. -/
theorem Inv.buildResume (h : Inv crates senderId receiverId windowSize x) (now : Nat) :
    Inv crates senderId receiverId windowSize
      (x.step crates senderId receiverId (.buildResume now)) := by
  have hr := buildResume_received crates x.system.receiver now senderId receiverId
  have hle := h.safe.recv.recvState_le now
  have hrecord := (h.safe.recv.keep hr hle).2
  refine ⟨h.safe_step _, h.sends.of_receiver rfl rfl rfl (List.append_nil _),
    h.receives.of_record hrecord rfl (List.append_nil _) (List.append_nil _) fun r hmem => ?_⟩
  have hnet : r ∈ (x.system.next crates senderId receiverId (.buildResume now)).resumeNet := hmem
  unfold System.next at hnet
  dsimp only at hnet
  split at hnet
  · rcases List.mem_append.mp hnet with hold | hnew
    · exact h.receives.resumes r hold
    · rw [List.mem_singleton.mp hnew]
      show ((x.system.receiver.buildResume crates now senderId receiverId).2.recvState now
        senderId).cumProcessed ≤ _
      rw [hr.recvState_eq]
      exact hle
  · exact h.receives.resumes r hnet

/-- **What `process_data_frame` does** with the frame of a message. -/
theorem step_processDataFrame (hshort : WritesShort crates) (h : Sends crates senderId receiverId x)
    (hids : x.nextMsgId receiverId ≤ 2 ^ 64) {bytes : Bytes} (hmem : bytes ∈ x.system.dataNet)
    {msgId : Nat} {payload : Bytes} (hposted : (msgId, payload) ∈ x.posted)
    (hbuild : buildData crates receiverId senderId msgId payload = .ok bytes) (now : Nat) :
    let known := (recordOf x.system.receiver).isProcessed senderId msgId
    x.step crates senderId receiverId (.processDataFrame now bytes)
      = { system :=
            { x.system with
              receiver := (x.system.receiver.processDataFrame now senderId msgId payload).2
              delivered := if known then x.system.delivered else x.system.delivered ++ [msgId] }
          posted := x.posted
          taken := if known then x.taken else x.taken ++ [(msgId, payload)] } := by
  intro known
  obtain ⟨f, hdecoded, hid, hpayload⟩ := buildData_frame hshort hbuild
  have hnat : f.fast.msgId.toNat = msgId := by
    rw [hid]
    exact Nat.mod_eq_of_lt (Nat.lt_of_lt_of_le (h.below _ hposted) hids)
  have hresult : (x.system.receiver.processDataFrame now senderId msgId payload).1 = .ok (!known) :=
    (run_record ⟨now, senderId, msgId, payload⟩ x.system.receiver).1
  unfold Exchange.step System.next posts takes
  dsimp only
  rw [if_pos hmem, if_pos hmem, hdecoded]
  dsimp only [Option.bind_some]
  rw [hnat, hpayload, hresult]
  cases hknown : known with
  | true => simp
  | false => simp

/-- A frame of a message that is recorded already. -/
theorem Inv.known (h : Inv crates senderId receiverId windowSize x) {msgId : Nat}
    (hid : 1 ≤ msgId) (hknown : (recordOf x.system.receiver).isProcessed senderId msgId = true) :
    msgId ∈ x.taken.map Prod.fst :=
  (h.recorded_lt hid (DedupTables.isProcessed_iff.mp hknown)).1

/-- A frame of a message that is not recorded: it is now, and nothing is forgotten. -/
theorem Inv.recorded_mark (h : Inv crates senderId receiverId windowSize x)
    (hwithin : x.WithinWindow senderId receiverId windowSize) {e : Nat × Bytes}
    (he : e ∈ x.posted) :
    ∀ e' ∈ x.taken ++ [e],
      ((recordOf x.system.receiver).markProcessed senderId e.1).isProcessed senderId e'.1
        = true := by
  obtain ⟨hahead, hfits⟩ := hwithin
  have hlt := h.sends.below e he
  have hsize := h.receives.size
  have hcum := h.watermark_lt
  unfold watermark at hahead hcum
  intro e' he'
  rcases List.mem_append.mp he' with hold | hnew
  · refine DedupTables.isProcessed_mark_of h.receives.inWindow ?_ (h.receives.recorded e' hold)
    -- what is recorded after it was recorded before, or is the new id
    have hmark : ((recordOf x.system.receiver).markProcessed senderId e.1).cum senderId
        < x.nextMsgId receiverId := by
      by_contra hle
      have hpos : 1 ≤ x.nextMsgId receiverId := h.safe.send.next_pos
      rcases DedupTables.recorded_of_mark (.inl (Nat.le_of_not_lt hle)) with hrec | hrec | hrec
      · exact absurd (h.recorded_lt hpos (.inl hrec)).2 (Nat.lt_irrefl _)
      · exact absurd (h.recorded_lt hpos (.inr hrec)).2 (Nat.lt_irrefl _)
      · omega
    omega
  · rw [List.mem_singleton.mp hnew]
    refine DedupTables.isProcessed_mark_self ?_ (.inr ?_)
    · omega
    · omega

/-- `process_data_frame`: a message is taken that was not taken before, and then it is. -/
theorem Inv.processDataFrame (hshort : WritesShort crates)
    (h : Inv crates senderId receiverId windowSize x)
    (hwithin : x.WithinWindow senderId receiverId windowSize) {bytes : Bytes}
    (hmem : bytes ∈ x.system.dataNet) {msgId : Nat} {payload : Bytes}
    (hposted : (msgId, payload) ∈ x.posted)
    (hbuild : buildData crates receiverId senderId msgId payload = .ok bytes) (now : Nat) :
    let x' := x.step crates senderId receiverId (.processDataFrame now bytes)
    Inv crates senderId receiverId windowSize x' ∧ Mailbox.Step x.mailbox x'.mailbox ∧
      msgId ∈ x'.taken.map Prod.fst := by
  intro x'
  have hids : x.nextMsgId receiverId ≤ 2 ^ 64 := by
    have := hwithin.2
    omega
  have hstep := step_processDataFrame hshort h.sends hids hmem hposted hbuild now
  have hsafe : Safe senderId receiverId x'.system := h.safe_step _
  have hrecord := (run_record ⟨now, senderId, msgId, payload⟩ x.system.receiver).2
  have hsends : Sends crates senderId receiverId x' := by
    rw [show x' = _ from hstep]
    exact h.sends.of_receiver rfl rfl rfl rfl
  cases hknown : (recordOf x.system.receiver).isProcessed senderId msgId with
  | true =>
    rw [hknown] at hstep hrecord
    refine ⟨⟨hsafe, hsends, ?_⟩, ?_, ?_⟩
    · rw [show x' = _ from hstep]
      exact h.receives.of_record hrecord rfl rfl rfl h.receives.resumes
    · rw [show x' = _ from hstep]
      exact .idle
    · rw [show x' = _ from hstep]
      exact h.known (h.msgId_pos hposted) hknown
  | false =>
    rw [hknown] at hstep hrecord
    have hnew : msgId ∉ x.taken.map Prod.fst := by
      intro htaken
      obtain ⟨e, he, rfl⟩ := List.mem_map.mp htaken
      exact absurd (h.receives.recorded e he) (by rw [hknown]; simp)
    refine ⟨⟨hsafe, hsends, ?_⟩, ?_, ?_⟩
    · rw [show x' = _ from hstep]
      have hmark : recordOf (x.system.receiver.processDataFrame now senderId msgId payload).2
          = (recordOf x.system.receiver).markProcessed senderId msgId := hrecord
      refine ⟨?_, ?_, ?_, ?_, ?_, ?_⟩
      · show (x.taken ++ [(msgId, payload)]).map Prod.fst = x.system.delivered ++ [msgId]
        rw [List.map_append, h.receives.delivered]
        rfl
      · intro e he
        rcases List.mem_append.mp he with he | he
        · exact h.receives.posted e he
        · rw [List.mem_singleton.mp he]
          exact hposted
      · dsimp only
        rw [hmark, DedupTables.mark_windowSize, h.receives.size]
      · dsimp only
        rw [hmark]
        exact h.receives.inWindow.mark msgId
      · dsimp only
        rw [hmark]
        exact h.recorded_mark hwithin hposted
      · intro r hr
        unfold watermark
        dsimp only
        rw [hmark]
        exact Nat.le_trans (h.receives.resumes r hr) (DedupTables.cum_le_mark _ _ _)
    · rw [show x' = _ from hstep]
      exact .take msgId payload hposted hnew
    · rw [show x' = _ from hstep]
      exact List.mem_map_of_mem (List.mem_append_right _ (List.mem_singleton_self _))

/-- An operation that neither logs nor reports a message. -/
theorem step_quiet {op : SystemOp} (hposts : posts crates senderId receiverId x.system op = none)
    (htakes : takes senderId x.system op = none) :
    (x.step crates senderId receiverId op).mailbox = x.mailbox := by
  unfold mailbox Exchange.step
  rw [hposts, htakes, Option.toList_none, List.append_nil, List.append_nil]

/-- An operation of the sender that logs no message. -/
theorem Inv.of_sends (h : Inv crates senderId receiverId windowSize x) {op : SystemOp}
    (hsends : Sends crates senderId receiverId (x.step crates senderId receiverId op))
    (hposts : posts crates senderId receiverId x.system op = none)
    (htakes : takes senderId x.system op = none)
    (hreceiver : (x.system.next crates senderId receiverId op).receiver = x.system.receiver)
    (hdelivered : (x.system.next crates senderId receiverId op).delivered = x.system.delivered)
    (hresumes : (x.system.next crates senderId receiverId op).resumeNet = x.system.resumeNet) :
    Inv crates senderId receiverId windowSize (x.step crates senderId receiverId op) ∧
      Mailbox.Step x.mailbox (x.step crates senderId receiverId op).mailbox := by
  have hmailbox := step_quiet hposts htakes
  have hposted : x.posted = (x.step crates senderId receiverId op).posted :=
    congrArg Mailbox.posted hmailbox.symm
  refine ⟨⟨h.safe_step op, hsends, h.receives.of_sender hreceiver hdelivered hresumes
    (congrArg Mailbox.taken hmailbox) fun e he => hposted ▸ he⟩, ?_⟩
  rw [hmailbox]
  exact .idle

/-- **Every operation is a step of a mailbox**, and keeps the invariant. -/
theorem Inv.step_mailbox (hshort : WritesShort crates)
    (h : Inv crates senderId receiverId windowSize x)
    (hwithin : x.WithinWindow senderId receiverId windowSize) (op : SystemOp) :
    Inv crates senderId receiverId windowSize (x.step crates senderId receiverId op) ∧
      Mailbox.Step x.mailbox (x.step crates senderId receiverId op).mailbox := by
  cases op with
  | sendData payload remaining =>
    refine ⟨⟨h.safe_step _, h.sends.sendData payload remaining,
      h.receives.of_sender rfl rfl rfl (List.append_nil _) (List.subset_append_left _ _)⟩, ?_⟩
    have htaken : (x.step crates senderId receiverId (.sendData payload remaining)).taken
        = x.taken := List.append_nil _
    unfold mailbox
    rw [htaken]
    unfold Exchange.step
    dsimp only
    rw [posts_sendData]
    cases hentry : x.system.sender.sendAppends crates receiverId senderId payload with
    | none =>
      rw [Option.map_none, Option.toList_none, List.append_nil]
      exact .idle
    | some entry =>
      refine .post entry.msgId payload fun e he => ?_
      rw [sendAppends_msgId hentry]
      exact h.sends.below e he
  | processDataFrame now bytes =>
    by_cases hmem : bytes ∈ x.system.dataNet
    · obtain ⟨msgId, payload, hposted, hbuild⟩ := h.sends.net bytes hmem
      obtain ⟨hinv, hstep, -⟩ := h.processDataFrame hshort hwithin hmem hposted hbuild now
      exact ⟨hinv, hstep⟩
    · have hsame : x.step crates senderId receiverId (.processDataFrame now bytes) = x := by
        unfold Exchange.step System.next posts takes
        dsimp only
        rw [if_neg hmem, if_neg hmem, Option.toList_none, List.append_nil, List.append_nil]
      rw [hsame]
      exact ⟨h, .idle⟩
  | maybeBuildAck now =>
    refine ⟨h.maybeBuildAck now, ?_⟩
    rw [step_quiet rfl rfl]
    exact .idle
  | buildResume now =>
    refine ⟨h.buildResume now, ?_⟩
    rw [step_quiet rfl rfl]
    exact .idle
  | processAckFrame ack remaining =>
    refine h.of_sends (h.sends.processAckFrame ack remaining) rfl rfl ?_ ?_ ?_
    all_goals
      unfold System.next
      dsimp only
      split <;> rfl
  | handleResume resume remaining =>
    refine h.of_sends (h.sends.handleResume resume remaining) rfl rfl ?_ ?_ ?_
    all_goals
      unfold System.next
      dsimp only
      split <;> rfl

/-- Nothing has happened yet. -/
theorem inv_start (w₁ w₂ i₁ i₂ : Nat) (b₁ b₂ r₁ r₂ : UInt32) :
    Inv crates senderId receiverId w₂
      (start (.new (.new w₁) i₁ b₁ r₁) (.new (.new w₂) i₂ b₂ r₂)) where
  safe := (show SystemReachable crates senderId receiverId _ from
    .init w₁ w₂ i₁ i₂ b₁ b₂ r₁ r₂).safe
  sends :=
    { appended := rfl
      below := fun _ h => absurd h List.not_mem_nil
      log := fun _ h => absurd h List.not_mem_nil
      pending := fun _ h => absurd h List.not_mem_nil
      net := fun _ h => absurd h List.not_mem_nil }
  receives :=
    { delivered := rfl
      posted := fun _ h => absurd h List.not_mem_nil
      size := rfl
      inWindow := fun i hi => absurd hi (Finset.notMem_empty i)
      recorded := fun _ h => absurd h List.not_mem_nil
      resumes := fun _ h => absurd h List.not_mem_nil }

/-! ## Recovery -/

/-- What was posted, taken or written stays so. -/
theorem subset_step (crates : Crates) (senderId receiverId : UInt64) (x : Exchange)
    (op : SystemOp) :
    x.posted ⊆ (x.step crates senderId receiverId op).posted ∧
      x.taken ⊆ (x.step crates senderId receiverId op).taken ∧
      x.system.dataNet ⊆ (x.step crates senderId receiverId op).system.dataNet := by
  refine ⟨List.subset_append_left _ _, List.subset_append_left _ _, ?_⟩
  unfold Exchange.step System.next
  cases op with
  | sendData payload remaining => exact List.subset_append_left _ _
  | processDataFrame now bytes =>
    dsimp only
    split
    · split
      · exact List.Subset.refl _
      · exact List.Subset.refl _
    · exact List.Subset.refl _
  | maybeBuildAck now => exact List.Subset.refl _
  | processAckFrame ack remaining =>
    dsimp only
    split
    · exact List.subset_append_left _ _
    · exact List.Subset.refl _
  | buildResume now => exact List.Subset.refl _
  | handleResume resume remaining =>
    dsimp only
    split
    · exact List.subset_append_left _ _
    · exact List.Subset.refl _

theorem subset_run (crates : Crates) (senderId receiverId : UInt64) (x : Exchange)
    (ops : List SystemOp) :
    x.posted ⊆ (ops.foldl (step crates senderId receiverId) x).posted ∧
      x.taken ⊆ (ops.foldl (step crates senderId receiverId) x).taken := by
  refine List.foldlRecOn (motive := fun x' : Exchange => x.posted ⊆ x'.posted ∧ x.taken ⊆ x'.taken)
    ops _ ⟨List.Subset.refl _, List.Subset.refl _⟩ fun x' h op _ => ?_
  obtain ⟨hposted, htaken, -⟩ := subset_step crates senderId receiverId x' op
  exact ⟨List.Subset.trans h.1 hposted, List.Subset.trans h.2 htaken⟩

/-- **A frame that is on the network is processed at some time**, whatever else happens: its
message has been taken then. -/
theorem Inv.processed (hshort : WritesShort crates)
    (h : Inv crates senderId receiverId windowSize x) {later : List SystemOp}
    (hwithin : Along (step crates senderId receiverId)
      (fun x _ => x.WithinWindow senderId receiverId windowSize) x later) {msgId : Nat}
    {bytes : Bytes} (hmem : bytes ∈ x.system.dataNet)
    (hcarries : Carries crates senderId receiverId x msgId bytes)
    (harrives : ∃ now, SystemOp.processDataFrame now bytes ∈ later) :
    msgId ∈ (later.foldl (step crates senderId receiverId) x).taken.map Prod.fst := by
  obtain ⟨now, harrives⟩ := harrives
  induction later generalizing x with
  | nil => exact absurd harrives List.not_mem_nil
  | cons op later ih =>
    rcases List.mem_cons.mp harrives with rfl | harrives
    · obtain ⟨payload, hposted, hbuild⟩ := hcarries
      obtain ⟨-, -, htaken⟩ := h.processDataFrame hshort hwithin.1 hmem hposted hbuild now
      exact List.map_subset _ (subset_run crates senderId receiverId _ later).2 htaken
    · have hnet := (subset_step crates senderId receiverId x op).2.2 hmem
      exact ih (h.step_mailbox hshort hwithin.1 op).1 hwithin.2 hnet (hcarries.step op) harrives

/-- **A RESUME with enough credits writes the whole log** above its watermark. -/
theorem handleResume_writes {m : ReliabilityManager MemoryStorage} {peer : Peer}
    {resume : ResumeMeta}
    (hcredits : (total (fun e : WalEntry => e.bytes.length)
      (entriesAbove m.storage peer resume.receiverCumProc) : Int)
        ≤ resume.balance (m.sendState peer)) :
    (m.handleResume peer resume ⟨[], none⟩).2.2.written
      = (entriesAbove m.storage peer resume.receiverCumProc).map WalEntry.bytes := by
  have hspec := (SendOp.handleResume_spec .standard peer m resume (w := ⟨[], none⟩) rfl).2
  have hcand : (SendOp.handleResume resume).candidates .standard peer m
      = (entriesAbove m.storage peer resume.receiverCumProc).map entryFrame := by
    unfold SendOp.candidates entriesAbove
    dsimp only
    cases Wal.range m.storage peer resume.receiverCumProc none <;> rfl
  rw [hspec]
  unfold SendOp.writes
  rw [hcand, covered_eq_self]
  · rw [List.nil_append, List.map_map]
    rfl
  · rw [total_map]
    exact hcredits

/-- A RESUME with enough credits is handled, and its frames are processed at some time: all
that was posted before has been taken then. -/
theorem Inv.recover (hshort : WritesShort crates)
    (h : Inv crates senderId receiverId windowSize x) {resume : ResumeMeta}
    {later : List SystemOp} (hwithin : Along (step crates senderId receiverId)
      (fun x _ => x.WithinWindow senderId receiverId windowSize) x
      (.handleResume resume none :: later))
    (hresume : resume ∈ x.system.resumeNet)
    (hcredits : (total (fun e : WalEntry => e.bytes.length)
      (entriesAbove x.system.sender.storage receiverId resume.receiverCumProc) : Int)
        ≤ resume.balance (x.system.sender.sendState receiverId))
    (harrive : ∀ entry ∈ entriesAbove x.system.sender.storage receiverId resume.receiverCumProc,
      ∃ now, SystemOp.processDataFrame now entry.bytes ∈ later) :
    ∀ e ∈ x.posted, e.1 ∈ ((SystemOp.handleResume resume none :: later).foldl
      (step crates senderId receiverId) x).taken.map Prod.fst := by
  have hsystem : x.system.next crates senderId receiverId (.handleResume resume none) = _ :=
    next_handleResume hresume
  have hinv := (h.step_mailbox hshort hwithin.1 (.handleResume resume none)).1
  -- what the log holds above the watermark is on the network, and is taken later
  have hlogged : ∀ entry ∈ entriesAbove x.system.sender.storage receiverId
      resume.receiverCumProc, entry.msgId ∈ ((SystemOp.handleResume resume none :: later).foldl
        (step crates senderId receiverId) x).taken.map Prod.fst := by
    intro entry hentry
    refine hinv.processed hshort hwithin.2 ?_ ((h.sends.log entry ?_).step _)
      (harrive entry hentry)
    · unfold Exchange.step
      rw [hsystem]
      dsimp only
      rw [handleResume_writes hcredits]
      exact List.mem_append_right _ (List.mem_map_of_mem hentry)
    · rw [entriesAbove_memory] at hentry
      exact (List.mem_filter.mp hentry).1
  intro e he
  have hold : e.1 ∈ x.taken.map Prod.fst → e.1 ∈ ((SystemOp.handleResume resume none ::
      later).foldl (step crates senderId receiverId) x).taken.map Prod.fst := fun hmem =>
    List.map_subset _ (subset_run crates senderId receiverId x _).2 hmem
  have happended : e.1 ∈ x.system.appended := h.sends.appended ▸ List.mem_map_of_mem he
  rcases h.safe.send.logged e.1 happended with ⟨entry, hentry, hid⟩ | hdelivered
  · by_cases habove : entry.msgId > resume.receiverCumProc
    · rw [← hid]
      refine hlogged entry ?_
      rw [entriesAbove_memory]
      exact List.mem_filter.mpr ⟨hentry, by simpa using habove⟩
    · -- the receiver has it already
      have hle : e.1 ≤ x.watermark senderId := by
        have := h.receives.resumes resume hresume
        omega
      exact hold (h.recorded_lt (h.msgId_pos he) (.inl hle)).1
  · exact hold (h.receives.delivered ▸ hdelivered)

/-! ## The result -/

/-- **Every message exactly once.** Whatever the network loses, duplicates and reorders, and
whichever writes fail, as long as the sender is not more than the window ahead: sending and
receiving are the steps of a mailbox, so that what is reported as new was sent with this
payload and is reported once.

And whenever in such a run the sender handles a RESUME that is on the network, with credits
for the log above its watermark and on a connection that takes its writes: if each frame it
wrote is processed some time later, then every message that was posted before the RESUME has
been reported as new by the end; and when nothing was posted since, the messages reported are
all messages ever posted, each once. -/
theorem exactly_once (hshort : WritesShort crates) (senderId receiverId : UInt64)
    (w₁ w₂ i₁ i₂ : Nat) (b₁ b₂ r₁ r₂ : UInt32) (ops : List SystemOp)
    (hwithin : Along (step crates senderId receiverId)
      (fun x _ => x.WithinWindow senderId receiverId w₂)
      (start (.new (.new w₁) i₁ b₁ r₁) (.new (.new w₂) i₂ b₂ r₂)) ops) :
    let run := List.foldl (step crates senderId receiverId)
      (start (.new (.new w₁) i₁ b₁ r₁) (.new (.new w₂) i₂ b₂ r₂))
    (run ops).mailbox.Reached ∧ (∀ e ∈ (run ops).taken, e ∈ (run ops).posted) ∧
      ((run ops).taken.map Prod.fst).Nodup ∧
      ∀ before resume later, ops = before ++ .handleResume resume none :: later →
        let x := run before
        let entries := entriesAbove x.system.sender.storage receiverId resume.receiverCumProc
        resume ∈ x.system.resumeNet →
        (total (fun e : WalEntry => e.bytes.length) entries : Int)
          ≤ resume.balance (x.system.sender.sendState receiverId) →
        (∀ entry ∈ entries, ∃ now, SystemOp.processDataFrame now entry.bytes ∈ later) →
        (∀ e ∈ x.posted, e ∈ (run ops).taken) ∧
          ((run ops).posted = x.posted → (run ops).taken.Perm (run ops).posted) := by
  intro run
  have hrun : ∀ {ops}, Along (step crates senderId receiverId)
      (fun x _ => x.WithinWindow senderId receiverId w₂)
      (start (.new (.new w₁) i₁ b₁ r₁) (.new (.new w₂) i₂ b₂ r₂)) ops →
      Inv crates senderId receiverId w₂ (run ops) ∧ (run ops).mailbox.Reached := fun hwithin =>
    Mailbox.Reached.run mailbox (fun x op h hx => h.step_mailbox hshort hx op)
      (inv_start w₁ w₂ i₁ i₂ b₁ b₂ r₁ r₂) .refl hwithin
  have hsound : (run ops).mailbox.Sound := (hrun hwithin).2.sound
  refine ⟨(hrun hwithin).2, hsound.posted, hsound.once, ?_⟩
  intro before resume later hops x entries hresume hcredits harrive
  rw [hops, along_append] at hwithin
  have hall := (hrun hwithin.1).1.recover hshort hwithin.2 hresume hcredits harrive
  have hfold : (SystemOp.handleResume resume none :: later).foldl (step crates senderId receiverId)
      x = run ops := by
    rw [hops]
    exact (List.foldl_append ..).symm
  rw [hfold] at hall
  have htaken : ∀ e ∈ x.posted, e ∈ (run ops).taken := fun e he =>
    hsound.taken_of_number (hfold ▸ (subset_run crates senderId receiverId x _).1 he) (hall e he)
  exact ⟨htaken, fun hposted => hsound.perm fun e he => htaken e (hposted ▸ he)⟩

instance (windowSize : Nat) (x : Exchange) :
    Decidable (x.WithinWindow senderId receiverId windowSize) :=
  inferInstanceAs (Decidable (_ ∧ _))

theorem writesShort_standard : WritesShort .standard := fun _ _ h =>
  Nat.le_of_eq (congrArg List.length (Option.some.inj h).symm)

/-- Two messages wait for credits, and a RESUME makes room for both. -/
def waitingOps : List SystemOp :=
  [.sendData [1, 2, 3] none, .buildResume 0, .sendData [4] none]

/-- The state they lead to. -/
abbrev waiting : Exchange :=
  waitingOps.foldl (step .standard 1 2)
    (start (.new (.new 8) 0 1 1000) (.new (.new 8) 0 1 1000))

/-- The frames arrive in the other order, and then once more. -/
def waitingFrames : List SystemOp :=
  let frames := (entriesAbove waiting.system.sender.storage 2 0).map WalEntry.bytes
  (frames.reverse ++ frames).map (SystemOp.processDataFrame 0)

theorem exactly_once_waiting :
    let x' := (SystemOp.handleResume ⟨true, 0, 0, some 1000⟩ none :: waitingFrames).foldl
      (step .standard 1 2) waiting
    waiting.posted = [(1, [1, 2, 3]), (2, [4])] ∧ waiting.taken = [] ∧
      x'.taken.Perm x'.posted := by
  intro x'
  obtain ⟨-, -, -, hrecover⟩ := exactly_once writesShort_standard 1 2 8 8 0 0 1 1 1000 1000
    (waitingOps ++ SystemOp.handleResume ⟨true, 0, 0, some 1000⟩ none :: waitingFrames)
    (by decide +kernel)
  have hperm := (hrecover waitingOps ⟨true, 0, 0, some 1000⟩ waitingFrames rfl (by decide +kernel)
    (by decide +kernel) fun entry hentry => ⟨0, List.mem_map_of_mem
      (List.mem_append_right _ (List.mem_map_of_mem hentry))⟩).2 (by decide +kernel)
  rw [List.foldl_append] at hperm
  exact ⟨by decide +kernel, by decide +kernel, hperm⟩

end Exchange

end MeshCore.Session
