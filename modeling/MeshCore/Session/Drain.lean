import Mathlib.Order.Bounds.Defs
import MeshCore.Session.Credits

/-!
# Draining the queue

`process_ack_frame` writes queued frames as far as the credits reach, and takes them out
of the queue after the loop. When no write fails, what is written is the longest prefix of
the queue that the grant pays for, and the rest stays queued
(`processAckFrame_drains_longest`).

When a write fails, `?` returns before the removal: the credits are those after the frames
already written, and all frames are still queued (`processAckFrame_error`). So the two
agree only if the first write is the one that fails (`failed_drain_iff`).
-/

namespace MeshCore.Session

open MeshCore.Lib MeshCore.Wire MeshCore.Storage ReliabilityManager

/-! ## A drain that goes through -/

/-- **Draining is exact.** The frames written are the longest prefix of the queue that fits
in the grant, in queue order; the others stay queued in order; and the credits are the
grant without what was written. -/
theorem processAckFrame_drains_longest {σ : Type} [Wal σ] (m : ReliabilityManager σ) (peer : Peer)
    (ack : AckMeta) (w : Writer) (hw : w.remaining = none) :
    let queue := (m.sendState peer).pendingFrames
    (m.processAckFrame peer ack w).1 = .ok () ∧
    ∃ n, IsGreatest {k | k ≤ queue.length ∧ total frameLen (queue.take k) ≤ ack.credits.toNat} n ∧
      (m.processAckFrame peer ack w).2.2.written = w.written ++ (queue.take n).map Prod.snd ∧
      (m.processAckFrame peer ack w).2.1.sendState peer =
        { m.sendState peer with
          cumAcked := max (m.sendState peer).cumAcked ack.cumAck
          creditsBytes := ack.credits.toNat - total frameLen (queue.take n)
          pendingFrames := queue.drop n } := by
  intro queue
  obtain ⟨hok, hstate, hwriter⟩ := processAckFrame_infallible m peer ack hw
  have htake := List.prefix_iff_eq_take.mp (covered_isPrefix frameLen ack.credits.toNat queue)
  -- a number of frames fits exactly if it is no larger than what the loop takes
  have hfits : ∀ k, k ≤ (covered frameLen ack.credits.toNat queue).length ↔
      k ≤ queue.length ∧ total frameLen (queue.take k) ≤ ack.credits.toNat := by
    intro k
    rw [le_length_covered_iff frameLen (Int.natCast_nonneg _), Int.ofNat_le]
  refine ⟨hok, (covered frameLen ack.credits.toNat queue).length, ⟨?_, ?_⟩, ?_, ?_⟩
  · exact (hfits _).mp (Nat.le_refl _)
  · intro k hk
    exact (hfits k).mpr hk
  · rw [← htake, hwriter]
  · rw [← htake]
    exact hstate

/-- Two frames in the queue. -/
def queuedSender : ReliabilityManager MemoryStorage :=
  (ReliabilityManager.new (.new 8) 0 1 300).setSend 2
    { nextMsgId := 3, pendingFrames := [(1, [7]), (2, [8])] }

theorem processAckFrame_drains_longest_one :
    ∃ n, IsGreatest {k | k ≤ 2 ∧ total frameLen ([(1, [7]), (2, [8])].take k) ≤ 1} n ∧
      (queuedSender.processAckFrame 2 ⟨0, 1⟩ ⟨[], none⟩).2.2.written
        = ([(1, [7]), (2, [8])].take n).map Prod.snd := by
  obtain ⟨-, n, hn, hwritten, -⟩ :=
    processAckFrame_drains_longest queuedSender 2 ⟨0, 1⟩ ⟨[], none⟩ rfl
  exact ⟨n, hn, hwritten⟩

/-! ## A drain that fails -/

/-- What the loop has done when a write fails: it wrote as many frames as the connection
took, and subtracted their lengths. -/
theorem drainPending_error {pending : List (Nat × Bytes)} {i : Nat} {credits credits' : Int}
    {sent : List Nat} {w w' : Writer} {e : ReliabilityError}
    (h : drainPending i pending credits sent w = (.error e, credits', w')) :
    ∃ n, w.remaining = some n ∧ n < pending.length ∧
      credits' = credits - total frameLen (pending.take n) ∧
      w'.written = w.written ++ (pending.take n).map Prod.snd := by
  induction pending generalizing i credits sent w with
  | nil => exact absurd (congrArg Prod.fst h) (by simp [drainPending])
  | cons frame pending ih =>
    unfold drainPending at h
    split at h
    next hge =>
      cases hremaining : w.remaining with
      | none =>
        rw [writeAll_infallible hremaining] at h
        obtain ⟨n, hn, -⟩ := ih h
        exact absurd (hn.symm.trans hremaining) (by simp)
      | some n =>
        unfold Writer.writeAll at h
        rw [hremaining] at h
        cases n with
        | zero =>
          obtain ⟨rfl, rfl⟩ := Prod.mk.inj (Prod.mk.inj h).2
          exact ⟨0, rfl, Nat.succ_pos _, by simp, by simp⟩
        | succ n =>
          obtain ⟨k, hk, hlt, hcredits, hwritten⟩ := ih h
          obtain rfl : n = k := Option.some.inj hk
          have hlen : frameLen frame = frame.2.length := rfl
          refine ⟨n + 1, rfl, Nat.succ_lt_succ hlt, ?_, ?_⟩
          · rw [hcredits, List.take_succ_cons, total_cons, hlen]
            omega
          · rw [hwritten, List.take_succ_cons, List.map_cons, List.append_assoc]
            rfl
    next => exact absurd (congrArg Prod.fst h) (by simp)

/-- **What `process_ack_frame` leaves when a write fails**: the credits without the
frames written, and the whole queue. -/
theorem processAckFrame_error {σ : Type} [Wal σ] {m : ReliabilityManager σ} {peer : Peer}
    {ack : AckMeta} {w : Writer} {e : ReliabilityError}
    (h : (m.processAckFrame peer ack w).1 = .error e) :
    ∃ n, w.remaining = some n ∧ n < (m.sendState peer).pendingFrames.length ∧
      (m.processAckFrame peer ack w).2.1.sendState peer =
        { m.sendState peer with
          cumAcked := max (m.sendState peer).cumAcked ack.cumAck
          creditsBytes :=
            ack.credits.toNat - total frameLen ((m.sendState peer).pendingFrames.take n) } ∧
      (m.processAckFrame peer ack w).2.2.written
        = w.written ++ ((m.sendState peer).pendingFrames.take n).map Prod.snd := by
  have hstate : (m.initSendState peer).1 = m.sendState peer := rfl
  unfold ReliabilityManager.processAckFrame at h ⊢
  dsimp only at h ⊢
  rw [recordAck_fst, hstate] at h ⊢
  dsimp only at h ⊢
  rcases hdrain : drainPending 0 (m.sendState peer).pendingFrames ack.credits.toNat [] w with
    ⟨result, credits, w'⟩
  rw [hdrain] at h
  cases result with
  | ok sent => exact absurd h (by simp)
  | error e' =>
    obtain ⟨n, hn, hlt, hcredits, hwritten⟩ := drainPending_error hdrain
    refine ⟨n, hn, hlt, ?_, hwritten⟩
    dsimp only
    rw [setSend_sendState, hcredits]

/-- The queue and the credits account for the frames written: the queue is the old one
without them, and the credits are the grant without their lengths. -/
def DrainAccounts (before after : SendState) (grant : Int) (old new : List Bytes) : Prop :=
  ∃ n, new = old ++ (before.pendingFrames.take n).map Prod.snd ∧
    n ≤ before.pendingFrames.length ∧ after.pendingFrames = before.pendingFrames.drop n ∧
    after.creditsBytes = grant - total frameLen (before.pendingFrames.take n)

/-- With the whole queue left, that is so only if nothing was written. -/
theorem drainAccounts_iff {before after : SendState} {grant : Int} {old new : List Bytes} {n : Nat}
    (hn : n < before.pendingFrames.length) (hpending : after.pendingFrames = before.pendingFrames)
    (hcredits : after.creditsBytes = grant - total frameLen (before.pendingFrames.take n))
    (hwritten : new = old ++ (before.pendingFrames.take n).map Prod.snd) :
    DrainAccounts before after grant old new ↔ n = 0 := by
  constructor
  · intro haccounts
    obtain ⟨k, hk, -, hdrop, -⟩ := haccounts
    have hqueue := congrArg List.length (hpending.symm.trans hdrop)
    have hframes := congrArg List.length (hwritten.symm.trans hk)
    simp only [List.length_append, List.length_map, List.length_take, List.length_drop] at *
    omega
  · intro hzero
    subst hzero
    exact ⟨0, hwritten, Nat.zero_le _, hpending, hcredits⟩

/-- **When a failed drain does not queue written frames again**: when the first write
fails, and so none was written. -/
theorem failed_drain_iff {σ : Type} [Wal σ] (m : ReliabilityManager σ) (peer : Peer)
    (ack : AckMeta) (w : Writer) (e : ReliabilityError)
    (h : (m.processAckFrame peer ack w).1 = .error e) :
    DrainAccounts (m.sendState peer) ((m.processAckFrame peer ack w).2.1.sendState peer)
        ack.credits.toNat w.written (m.processAckFrame peer ack w).2.2.written
      ↔ w.remaining = some 0 := by
  obtain ⟨n, hn, hlt, hstate, hwritten⟩ := processAckFrame_error h
  rw [hn, Option.some_inj]
  refine drainAccounts_iff hlt ?_ ?_ hwritten
  · rw [hstate]
  · rw [hstate]

theorem failed_drain_iff_first :
    DrainAccounts (queuedSender.sendState 2)
      ((queuedSender.processAckFrame 2 ⟨0, 300⟩ ⟨[], some 0⟩).2.1.sendState 2) 300 []
      (queuedSender.processAckFrame 2 ⟨0, 300⟩ ⟨[], some 0⟩).2.2.written :=
  (failed_drain_iff queuedSender 2 ⟨0, 300⟩ ⟨[], some 0⟩ .io (by rfl)).mpr rfl

/-- The connection takes the first frame and not the second: the first stays queued, and
is sent again with the next ACK. -/
theorem written_frame_stays_queued :
    ¬ ∀ (m : ReliabilityManager MemoryStorage) (peer : Peer) (ack : AckMeta) (w : Writer)
      (e : ReliabilityError), (m.processAckFrame peer ack w).1 = .error e →
      DrainAccounts (m.sendState peer) ((m.processAckFrame peer ack w).2.1.sendState peer)
        ack.credits.toNat w.written (m.processAckFrame peer ack w).2.2.written := by
  intro h
  have haccounts := h queuedSender 2 ⟨0, 300⟩ ⟨[], some 1⟩ .io (by rfl)
  have hone := (drainAccounts_iff (n := 1) (by decide) (by rfl) (by rfl) (by rfl)).mp haccounts
  omega

end MeshCore.Session
