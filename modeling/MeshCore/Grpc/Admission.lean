import MeshCore.Grpc.Control
import MeshCore.Session.FrameSize

/-!
# What becomes of a request to send

`send` has five ways to go (`send_outcomes`): the request is invalid, its destination is not
known, it waits for an acknowledgment that it does not ask for, the outbound channel is
closed, or its message is queued. None of them looks at the size of the message, so a client
may be told that a message is queued that the session will not be able to build a frame of
(`queued_encodes_iff`).
-/

namespace MeshCore.Grpc

open MeshCore.Lib MeshCore.Wire MeshCore.Session

/-- The size of the frame of the request's message, whatever node sends it under whatever
ID. -/
def SendRequest.frameSize (req : SendRequest) : Nat := (req.outbound 0 0).frameSize

namespace MeshDataService

variable {svc : MeshDataService} {req : SendRequest} {now : Nat} {isOpen : Bool}

/-- A client that is told that its message is queued has it on the outbound channel. -/
theorem send_queued {response : SendResponse}
    (hok : (svc.send req now isOpen).outcome = .ok (.responds response))
    (hqueued : response.status = .queued) :
    (svc.send req now isOpen).outbound = [req.outbound svc.nodeId svc.nextId] := by
  rcases svc.send_outcomes req now isOpen with ⟨-, text, hsend⟩ | ⟨text, hsend⟩ |
    ⟨-, -, text, hsend⟩ | ⟨-, -, text, hsend⟩ | ⟨queued, -, hsend⟩
  · rw [hsend] at hok
    exact absurd hok (by simp)
  · rw [hsend] at hok
    obtain rfl := SendOutcome.responds.inj (Except.ok.inj hok)
    exact absurd hqueued (by simp)
  · rw [hsend] at hok
    exact absurd hok (by simp)
  · rw [hsend] at hok
    exact absurd hok (by simp)
  · rw [hsend]

end MeshDataService

/-! ## Messages that are too large -/

/-- **Which accepted messages can be encoded**: those whose frame is within the limit of
the session. Only in the mode `FireAndForget` does `send` respond `Queued` without a wait. -/
theorem queued_encodes_iff {crates : Crates} (hcrates : WritesCbor crates)
    (svc : MeshDataService) (req : SendRequest) (now : Nat) (isOpen : Bool)
    (response : SendResponse)
    (hok : (svc.send req now isOpen).outcome = .ok (.responds response))
    (hqueued : response.status = .queued) :
    ∃ message, (svc.send req now isOpen).outbound = [message] ∧
      ((∃ bytes, buildDataFrame crates message = .ok bytes) ↔ req.frameSize ≤ maxDataFrame) :=
  ⟨req.outbound svc.nodeId svc.nextId, MeshDataService.send_queued hok hqueued,
    buildDataFrame_ok_iff hcrates _⟩

theorem standard_writesCbor : WritesCbor .standard := fun _ _ => rfl

/-- A request to send so many bytes to node 2, which is known. -/
def sizedRequest (n : Nat) : SendRequest :=
  { dstNode := 2, headers := [], payload := List.replicate n 0, corrId := 0, requireAck := false
    mode := .fireAndForget, timeoutSeconds := 0 }

theorem encodes_sizedRequest_iff (n : Nat) :
    (∃ bytes, buildDataFrame .standard ((sizedRequest n).outbound 1 1) = .ok bytes) ↔
      57 + n ≤ maxDataFrame := by
  have hsize : ((sizedRequest n).outbound 1 1).frameSize = 57 + n := by
    have hlen : (List.replicate n (0 : UInt8)).length = n := List.length_replicate
    show 56 + 1 + (List.replicate n (0 : UInt8)).length = _
    rw [hlen]
  rw [buildDataFrame_ok_iff standard_writesCbor, hsize]

/-- A node accepts it, unless it is empty. -/
theorem send_sizedRequest {n : Nat} (hn : n ≠ 0) :
    (newService.send (sizedRequest n) 0 true).outcome
        = .ok (.responds ⟨1, .queued, "Message queued for delivery", false⟩) ∧
      (newService.send (sizedRequest n) 0 true).outbound = [(sizedRequest n).outbound 1 1] := by
  have hvalid : ¬ (sizedRequest n).Invalid := by
    intro hinvalid
    rcases hinvalid with hdst | hpayload
    · exact absurd (show (2 : UInt64) = 0 from hdst) (by decide)
    · exact hn ((List.replicate_eq_nil_iff _).mp hpayload)
  have hack : ¬ (sizedRequest n).Unackable :=
    fun hack => absurd (show SendMode.fireAndForget = .waitForAck from hack.1) (by decide)
  obtain ⟨queued, -, hsend⟩ := @MeshDataService.send_accepted newService (sizedRequest n) 0
    hvalid rfl hack
  rw [hsend]
  exact ⟨rfl, rfl⟩

theorem queued_encodes_iff_small :
    ∃ message, (newService.send (sizedRequest 1) 0 true).outbound = [message] ∧
      ((∃ bytes, buildDataFrame .standard message = .ok bytes) ↔
        (sizedRequest 1).frameSize ≤ maxDataFrame) :=
  queued_encodes_iff standard_writesCbor newService (sizedRequest 1) 0 true
    ⟨1, .queued, "Message queued for delivery", false⟩ rfl rfl

/-- A message of 64 KiB is queued, and no frame can be built of it. -/
theorem queued_not_encoded :
    ¬ ∀ (svc : MeshDataService) (req : SendRequest) (now : Nat) (isOpen : Bool)
      (response : SendResponse), req.mode = .fireAndForget →
      (svc.send req now isOpen).outcome = .ok (.responds response) →
      response.status = .queued →
      ∀ message ∈ (svc.send req now isOpen).outbound,
        ∃ bytes, buildDataFrame .standard message = .ok bytes := by
  intro h
  obtain ⟨hok, hout⟩ := send_sizedRequest (n := 65536) (Nat.succ_ne_zero _)
  have hbuild := h newService (sizedRequest 65536) 0 true _ rfl hok rfl
    ((sizedRequest 65536).outbound 1 1) (by rw [hout]; exact List.mem_singleton_self _)
  have hfits : 57 + 65536 ≤ maxDataFrame := (encodes_sizedRequest_iff 65536).mp hbuild
  exact absurd hfits (by decide)

end MeshCore.Grpc
