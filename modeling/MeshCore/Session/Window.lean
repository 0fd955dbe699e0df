import MeshCore.Session.Credits
import MeshCore.Session.Delivery

/-!
# The receive window

A sender and a receiver, joined by one channel for DATA frames and one for ACKs,
neither of which loses or reorders anything. The receiver charges itself the
payloads it takes in, and its ACKs carry what it has left. The sender replaces
its balance by that value. What was on its way while the ACK was is counted
twice: the receiver will still charge for it, and the sender has credits for it
again.

`Within` is what a respected window means: the receiver has room for all payloads
on their way and for all the sender may still write. Every operation keeps it,
the processing of an ACK apart, which does if the value in the ACK still leaves
room for what is on its way (`window_respected`). One ACK that crosses a DATA
frame is enough to overdraw the window (`window_overdrawn`).

Mirroring notes:
- An ACK is the values it carries, as in the system of the delivery results.
- A DATA frame on its way is its bytes. The receiver decodes them, and a frame
  that does not decode is not taken off the channel.
-/

namespace MeshCore.Session

open MeshCore.Lib MeshCore.Wire MeshCore.Storage

namespace ReliabilityManager

variable {τ : Type}

/-- What the peer may still send. -/
def creditsAvail [Dedup τ] (m : ReliabilityManager τ) (peer : Peer) : Int :=
  (m.recvState 0 peer).creditsAvail

/-- `process_data_frame` charges the payload of a new message. -/
theorem processDataFrame_credits [Dedup τ] (m : ReliabilityManager τ) (now : Nat) (peer : Peer)
    (msgId : Nat) (payload : Bytes) :
    (m.processDataFrame now peer msgId payload).2.creditsAvail peer
      = if Dedup.isProcessed m.storage peer msgId then m.creditsAvail peer
        else m.creditsAvail peer - payload.length := by
  have hnow := (recvState_now m 0 now peer).1
  obtain ⟨r, hr, -, -, havail⟩ := processDataFrame_kept m now peer msgId payload
  unfold creditsAvail
  rw [hr.recvState_eq, hnow, havail]

/-- `maybe_build_ack` takes no credits away. -/
theorem maybeBuildAck_credits [Dedup τ] (crates : Crates) (m : ReliabilityManager τ) (now : Nat)
    (peer : Peer) (myNodeId : UInt64) :
    m.creditsAvail peer ≤ (m.maybeBuildAck crates now peer myNodeId).2.creditsAvail peer := by
  have hnow := (recvState_now m 0 now peer).1
  obtain ⟨r, hr, -, -, havail⟩ := maybeBuildAck_kept crates m now peer myNodeId
  unfold creditsAvail
  rw [hr.recvState_eq, hnow]
  rcases havail with heq | heq
  · exact Int.le_of_eq heq.symm
  · rw [heq]
    exact le_refreshed_creditsAvail _

end ReliabilityManager

open ReliabilityManager

variable {σ τ : Type}

/-! ## The system -/

/-- A sender and a receiver, and what is on its way between them, the oldest
first. -/
structure Link (σ τ : Type) where
  sender : ReliabilityManager σ
  receiver : ReliabilityManager τ
  dataChannel : List Bytes
  ackChannel : List AckMeta

/-- What happens on a link: a call of `send_data`, the arrival of the oldest DATA
frame, a call of `maybe_build_ack`, or the arrival of the oldest ACK. -/
inductive LinkEvent where
  | sendData (payload : Bytes)
  | dataArrives (now : Nat)
  | maybeBuildAck (now : Nat)
  | ackArrives

/-- The frame in a buffer. -/
def decoded (bytes : Bytes) : Option Frame :=
  match FrameDecoder.new.decode bytes with
  | (.ok (some frame), _) => some frame
  | _ => none

/-- What the receiver will be charged for a frame, at most. -/
def payloadLength (bytes : Bytes) : Nat :=
  match decoded bytes with
  | some frame => frame.payloadOrCipher.length
  | none => 0

namespace Link

/-- One event. -/
def step [Wal σ] [Dedup τ] (crates : Crates) (senderId receiverId : UInt64) (l : Link σ τ) :
    LinkEvent → Link σ τ
  | .sendData payload =>
    let (_, sender, w) := l.sender.sendData crates receiverId senderId payload ⟨[], none⟩
    { l with sender, dataChannel := l.dataChannel ++ w.written }
  | .dataArrives now =>
    match l.dataChannel with
    | [] => l
    | bytes :: rest =>
      match decoded bytes with
      | none => l
      | some frame =>
        let (_, receiver) := l.receiver.processDataFrame now senderId frame.fast.msgId.toNat
          frame.payloadOrCipher
        { l with receiver, dataChannel := rest }
  | .maybeBuildAck now =>
    let (result, receiver) := l.receiver.maybeBuildAck crates now senderId receiverId
    { l with
      receiver
      ackChannel :=
        match result with
        | .ok (some _) => l.ackChannel ++ [ackValues (receiver.recvState now senderId)]
        | _ => l.ackChannel }
  | .ackArrives =>
    match l.ackChannel with
    | [] => l
    | ack :: rest =>
      let (_, sender, w) := l.sender.processAckFrame receiverId ack ⟨[], none⟩
      { l with sender, dataChannel := l.dataChannel ++ w.written, ackChannel := rest }

/-- The payload bytes on their way. -/
def inFlight (l : Link σ τ) : Nat := total payloadLength l.dataChannel

/-- An ACK is processed only when the credits in it and the payloads on their way
are together no more than what the receiver has left. -/
def AckStillFits [Dedup τ] (senderId : UInt64) (l : Link σ τ) : LinkEvent → Prop
  | .ackArrives => ∀ ack ∈ l.ackChannel.head?,
      (ack.credits.toNat + l.inFlight : Int) ≤ l.receiver.creditsAvail senderId
  | _ => True

instance [Dedup τ] (senderId : UInt64) (l : Link σ τ) (e : LinkEvent) :
    Decidable (AckStillFits senderId l e) :=
  match e with
  | .ackArrives => inferInstanceAs (Decidable (∀ ack ∈ l.ackChannel.head?,
      (ack.credits.toNat + l.inFlight : Int) ≤ l.receiver.creditsAvail senderId))
  | .sendData _ => isTrue trivial
  | .dataArrives _ => isTrue trivial
  | .maybeBuildAck _ => isTrue trivial

/-- The receiver has room for everything on its way and for everything the sender
may still write. -/
structure Within [Wal σ] [Dedup τ] (senderId receiverId : UInt64) (l : Link σ τ) : Prop where
  nonneg : 0 ≤ (l.sender.sendState receiverId).creditsBytes
  room : l.inFlight + (l.sender.sendState receiverId).creditsBytes
    ≤ l.receiver.creditsAvail senderId

/-- A payload is no longer than its frame. -/
theorem payloadLength_le (bytes : Bytes) : payloadLength bytes ≤ bytes.length := by
  unfold payloadLength decoded
  rcases hdec : FrameDecoder.new.decode bytes with ⟨result, rest⟩
  cases result with
  | error e => exact Nat.zero_le _
  | ok found =>
    cases found with
    | none => exact Nat.zero_le _
    | some frame =>
      obtain ⟨hbytes, -⟩ := FrameDecoder.decode_eq_some.mp hdec
      dsimp only
      rw [hbytes, List.length_append, Frame.bytes_length]
      unfold Frame.encodedSize
      omega

/-- An operation of the sender, and what it writes put on the channel. The
receiver has room for it if it has for the balance the frames are written
against. -/
theorem within_of_run [Wal σ] [Dedup τ] (crates : Crates) {senderId receiverId : UInt64}
    {l l' : Link σ τ} (op : SendOp)
    (hsender : l'.sender = (op.run crates receiverId l.sender ⟨[], none⟩).2.1)
    (hreceiver : l'.receiver = l.receiver)
    (hdata : l'.dataChannel
      = l.dataChannel ++ (op.run crates receiverId l.sender ⟨[], none⟩).2.2.written)
    (hnonneg : 0 ≤ (l.sender.sendState receiverId).creditsBytes)
    (hroom : l.inFlight + op.balance (l.sender.sendState receiverId)
      ≤ l.receiver.creditsAvail senderId) : l'.Within senderId receiverId := by
  obtain ⟨hstate, hwritten⟩ := op.run_spec crates receiverId l.sender (w := ⟨[], none⟩) rfl
  obtain ⟨hcredits, hnonneg'⟩ := op.creditsBytes_after crates receiverId l.sender hnonneg
  -- what is written costs the sender at least what it will cost the receiver
  have hcost : total payloadLength ((op.writes crates receiverId l.sender).map Prod.snd)
      ≤ total frameLen (op.writes crates receiverId l.sender) := by
    rw [total_map]
    exact total_le_of_le _ fun frame _ => payloadLength_le frame.2
  have hinFlight : l'.inFlight
      = l.inFlight + total payloadLength ((op.writes crates receiverId l.sender).map Prod.snd) := by
    unfold inFlight
    rw [hdata, hwritten, List.nil_append, total_append]
  refine ⟨by rw [hsender, hstate]; exact hnonneg', ?_⟩
  rw [hinFlight, hsender, hstate, hcredits, hreceiver]
  push_cast
  omega

/-- **One event** keeps the window, if an ACK that arrives still fits. -/
theorem Within.step [Wal σ] [Dedup τ] {crates : Crates} {senderId receiverId : UInt64}
    {l : Link σ τ} {e : LinkEvent} (h : l.Within senderId receiverId)
    (he : l.AckStillFits senderId e) :
    (l.step crates senderId receiverId e).Within senderId receiverId := by
  cases e with
  | sendData payload =>
    exact within_of_run crates (.sendData senderId payload) rfl rfl rfl h.nonneg h.room
  | dataArrives now =>
    unfold Link.step
    dsimp only
    cases hdata : l.dataChannel with
    | nil => exact h
    | cons bytes rest =>
      dsimp only
      cases hframe : decoded bytes with
      | none => exact h
      | some frame =>
        have hlength : payloadLength bytes = frame.payloadOrCipher.length := by
          unfold payloadLength
          rw [hframe]
        have hinFlight : l.inFlight = payloadLength bytes + total payloadLength rest := by
          unfold inFlight
          rw [hdata, total_cons]
        have hcharged := processDataFrame_credits l.receiver now senderId
          frame.fast.msgId.toNat frame.payloadOrCipher
        have hroom := h.room
        refine ⟨h.nonneg, ?_⟩
        show (total payloadLength rest + (l.sender.sendState receiverId).creditsBytes : Int) ≤ _
        rw [hcharged]
        split <;> omega
  | maybeBuildAck now =>
    exact ⟨h.nonneg,
      Int.le_trans h.room (maybeBuildAck_credits crates l.receiver now senderId receiverId)⟩
  | ackArrives =>
    unfold Link.step
    dsimp only
    cases hack : l.ackChannel with
    | nil => exact h
    | cons ack rest =>
      have hfits : (ack.credits.toNat + l.inFlight : Int) ≤ l.receiver.creditsAvail senderId :=
        he ack (by rw [hack]; rfl)
      refine within_of_run crates (.processAckFrame ack) rfl rfl rfl h.nonneg ?_
      show (l.inFlight + ack.credits.toNat : Int) ≤ _
      omega

end Link

/-- **The window is respected as long as each ACK still fits when it arrives.** A
sender with as many credits as the receiver's window, a fresh receiver, nothing on
its way: in every run in which each ACK is processed only when its credits and the
payloads on their way are no more than the receiver has left, the receiver's
credits stay at least 0. -/
theorem window_respected [Wal σ] [Dedup τ] (crates : Crates) (senderId receiverId : UInt64)
    (sender : ReliabilityManager σ) (storage : τ) (ackInterval : Nat)
    (ackBatchSize defaultRecvWindow : UInt32) (events : List LinkEvent)
    (hcredits : (sender.sendState receiverId).creditsBytes = defaultRecvWindow.toNat) :
    let start : Link σ τ :=
      { sender, receiver := .new storage ackInterval ackBatchSize defaultRecvWindow
        dataChannel := [], ackChannel := [] }
    Along (Link.step crates senderId receiverId) (Link.AckStillFits senderId) start events →
      0 ≤ (events.foldl (Link.step crates senderId receiverId) start).receiver.creditsAvail
        senderId := by
  intro start hevents
  have hstart : start.Within senderId receiverId := by
    refine ⟨?_, ?_⟩
    · show 0 ≤ (sender.sendState receiverId).creditsBytes
      rw [hcredits]
      exact Int.natCast_nonneg _
    · show ((0 : Nat) : Int) + (sender.sendState receiverId).creditsBytes ≤ defaultRecvWindow.toNat
      rw [hcredits]
      omega
  have hend : (events.foldl (Link.step crates senderId receiverId) start).Within senderId
      receiverId := hevents.inv (fun l e h he => h.step he) hstart
  have hnonneg := hend.nonneg
  have hroom := hend.room
  omega

/-- A window of 300 bytes, of which nothing is used. -/
def freshLink : Link MemoryStorage MemoryStorage :=
  { sender := (ReliabilityManager.new (.new 8) 0 1 300).setSend 2 { creditsBytes := 300 }
    receiver := .new (.new 8) 0 1 300
    dataChannel := [], ackChannel := [] }

/-- With nothing on its way when the ACK arrives, the window is respected. -/
theorem window_respected_alternating :
    let events : List LinkEvent := [.sendData [7, 8, 9], .dataArrives 0, .maybeBuildAck 0,
      .ackArrives, .sendData [10], .dataArrives 0]
    (events.foldl (Link.step .standard 1 2) freshLink).receiver.creditsAvail 1 = 296 ∧
    0 ≤ (events.foldl (Link.step .standard 1 2) freshLink).receiver.creditsAvail 1 := by
  intro events
  exact ⟨by decide +kernel, window_respected .standard 1 2 freshLink.sender (MemoryStorage.new 8) 0
    1 300 events rfl (by decide +kernel)⟩

/-- An ACK with all 300 bytes of credits crosses a frame with a payload of 122
bytes. After it the sender may send 211 more. -/
theorem window_overdrawn :
    let events : List LinkEvent := [.sendData [], .dataArrives 0, .maybeBuildAck 0,
      .sendData (List.replicate 122 0), .ackArrives, .sendData (List.replicate 211 0),
      .dataArrives 0, .dataArrives 0]
    (freshLink.sender.sendState 2).creditsBytes
      = (freshLink.receiver.recvState 0 1).creditsMax.toNat ∧
    (events.foldl (Link.step .standard 1 2) freshLink).receiver.creditsAvail 1 = -33 := by
  decide +kernel

end MeshCore.Session
