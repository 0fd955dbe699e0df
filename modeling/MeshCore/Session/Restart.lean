import MeshCore.Session.Sequencing
import MeshCore.Storage.File
import MeshCore.Lib.Runs

/-!
# Message ids across restarts

After a restart `init_send_state` continues from the `last_appended` that a new
`FileWal` reads from `state.json`. `append` writes that file for every hundredth
id only, so a process that stops in between starts again with ids that its log
already holds (`restart_reuses_id`).

`Process` is a process on the file backend with the list of the ids it has
logged. `Fresh` is what keeps them apart: every logged id is at most the cached
`last_appended` of its peer, and the next id is above that. Sending and
acknowledging keep it, and a restart keeps it when `state.json` is up to date.
-/

namespace MeshCore.Session

open MeshCore.Lib MeshCore.Wire MeshCore.Storage ReliabilityManager

variable {crates : Crates}

/-! ## A process that restarts -/

/-- A process on the file backend, and the ids logged so far, with their peers. -/
structure Process (crates : Crates) where
  manager : ReliabilityManager (FileStorage crates)
  appended : List (Peer × Nat)

namespace Process

/-- A process on a directory. -/
def start (crates : Crates) (segmentBytes windowSize ackInterval : Nat)
    (ackBatchSize defaultRecvWindow : UInt32) (disk : Disk) : Process crates :=
  { manager := .new (.start crates segmentBytes windowSize disk) ackInterval ackBatchSize
      defaultRecvWindow
    appended := [] }

/-- `send_data`; the id is logged if the frame was appended. -/
def send (p : Process crates) (c : SendCall) : Process crates :=
  { manager := (c.run crates p.manager).2.1
    appended :=
      match p.manager.sendAppends crates c.peer c.myNodeId c.payload with
      | some entry => p.appended ++ [(c.peer, entry.msgId)]
      | none => p.appended }

/-- `process_ack_frame`, on a connection that allows some number of writes. -/
def ack (p : Process crates) (peer : Peer) (ack : AckMeta) (remaining : Option Nat) :
    Process crates :=
  { p with manager := (p.manager.processAckFrame peer ack { written := [], remaining }).2.1 }

/-- The process stops, and a new one with the same configuration opens the
directory: only the disk is left. -/
def restart (p : Process crates) : Process crates :=
  { p with
    manager := .new
      (.start crates p.manager.storage.wal.segmentBytes p.manager.storage.dedup.tables.windowSize
        p.manager.storage.disk)
      p.manager.ackInterval p.manager.ackBatchSize p.manager.defaultRecvWindow }

end Process

/-- What a process can do. -/
inductive ProcessOp where
  | send (c : SendCall)
  | ack (peer : Peer) (ack : AckMeta) (remaining : Option Nat)
  | restart

namespace ProcessOp

def run (p : Process crates) : ProcessOp → Process crates
  | send c => p.send c
  | ack peer a remaining => p.ack peer a remaining
  | restart => p.restart

/-- A restart happens only when `state.json` has the last logged id of every peer. -/
def RestartsSaved (p : Process crates) : ProcessOp → Prop
  | restart => ∀ peer, (p.manager.storage.saved peer).lastAppended
      = (p.manager.storage.cached peer).lastAppended
  | _ => True

end ProcessOp

/-! ## The invariant -/

/-- The logged ids are distinct, at most the last one that `FileWal` has cached for
their peer, and the next id is above that. -/
structure Fresh (p : Process crates) : Prop where
  nodup : p.appended.Nodup
  logged : ∀ e ∈ p.appended, e.2 ≤ (p.manager.storage.cached e.1).lastAppended
  next : ∀ peer, (p.manager.storage.cached peer).lastAppended
    < (p.manager.sendState peer).nextMsgId

theorem fresh_start (segmentBytes windowSize ackInterval : Nat)
    (ackBatchSize defaultRecvWindow : UInt32) (disk : Disk) :
    Fresh (Process.start crates segmentBytes windowSize ackInterval ackBatchSize defaultRecvWindow
      disk) :=
  ⟨List.nodup_nil, fun _ h => absurd h List.not_mem_nil, fun _ => Nat.lt_succ_self _⟩

/-- Nothing in the storage of a process changes but the acknowledged watermark. -/
theorem Fresh.keep {p p' : Process crates} (h : Fresh p) (happ : p'.appended = p.appended)
    (hlast : ∀ q, (p'.manager.storage.cached q).lastAppended
      = (p.manager.storage.cached q).lastAppended)
    (hnext : ∀ q, (p.manager.sendState q).nextMsgId ≤ (p'.manager.sendState q).nextMsgId) :
    Fresh p' := by
  refine ⟨by rw [happ]; exact h.nodup, fun e he => ?_, fun q => ?_⟩
  · rw [happ] at he
    rw [hlast]
    exact h.logged e he
  · rw [hlast]
    exact Nat.lt_of_lt_of_le (h.next q) (hnext q)

/-- A new id of one peer is logged and cached, above the one that was cached. -/
theorem Fresh.log {p p' : Process crates} (h : Fresh p) {peer : Peer} {id : Nat}
    (happ : p'.appended = p.appended ++ [(peer, id)])
    (hlast : ∀ q, (p'.manager.storage.cached q).lastAppended
      = if q = peer then id else (p.manager.storage.cached q).lastAppended)
    (hnew : (p.manager.storage.cached peer).lastAppended < id)
    (hnext : ∀ q, if q = peer then id < (p'.manager.sendState q).nextMsgId
      else (p.manager.sendState q).nextMsgId ≤ (p'.manager.sendState q).nextMsgId) :
    Fresh p' := by
  refine ⟨?_, fun e he => ?_, fun q => ?_⟩
  · -- every id logged for the peer so far is below the new one
    rw [happ, List.nodup_append]
    refine ⟨h.nodup, List.nodup_singleton _, fun e he e' he' heq => ?_⟩
    rw [List.mem_singleton] at he'
    have hle := h.logged e he
    rw [heq, he'] at hle
    exact absurd hnew (Nat.not_lt.mpr hle)
  · rw [happ, List.mem_append, List.mem_singleton] at he
    rw [hlast]
    rcases he with he | rfl
    · have hle := h.logged e he
      split
      next hq =>
        rw [hq] at hle
        exact hle.trans (Nat.le_of_lt hnew)
      next => exact hle
    · rw [if_pos rfl]
  · rw [hlast]
    have hq := hnext q
    split at hq
    next heq => rwa [if_pos heq]
    next hne =>
      rw [if_neg hne]
      exact Nat.lt_of_lt_of_le (h.next q) hq

/-- **Sending logs a new id.** -/
theorem Fresh.send {p : Process crates} (h : Fresh p) (c : SendCall) : Fresh (p.send c) := by
  obtain ⟨s, hnext, -, hsent⟩ := sendData_sent crates p.manager c.peer c.myNodeId c.payload
    { written := [], remaining := c.remaining }
  have hst : (p.send c).manager.storage = _ := hsent.storage
  have hnextPeer : ((p.send c).manager.sendState c.peer).nextMsgId
      = (p.manager.sendState c.peer).nextMsgId + 1 := by
    rw [show (p.send c).manager.sendState c.peer = s from hsent.sendState_eq, hnext]
  have hid := sendAppends_eq crates p.manager c.peer c.myNodeId c.payload
  cases happ : p.manager.sendAppends crates c.peer c.myNodeId c.payload with
  | none =>
    -- the id is used up, and the log is as before
    rw [happ] at hst hsent
    refine h.keep (by unfold Process.send; rw [happ]) (fun q => by rw [hst]) (fun q => ?_)
    by_cases hq : q = c.peer
    · rw [hq, hnextPeer]
      exact Nat.le_succ _
    · exact Nat.le_of_eq (hsent.nextMsgId_other hq rfl).symm
  | some entry =>
    have hentry : entry.msgId = (p.manager.sendState c.peer).nextMsgId := by
      rw [happ] at hid
      split at hid
      · exact Option.some.inj hid
      · exact absurd hid (by simp)
    rw [happ] at hst hsent
    refine h.log (by unfold Process.send; rw [happ])
      (fun q => ?_) ?_ (fun q => ?_)
    · rw [hst, FileStorage.cached_append]
      split <;> rfl
    · rw [hentry]
      exact h.next c.peer
    · split
      next hq =>
        rw [hq, hnextPeer, hentry]
        exact Nat.lt_succ_self _
      next hq =>
        refine Nat.le_of_eq (hsent.nextMsgId_other hq ?_).symm
        show ((Wal.append p.manager.storage c.peer entry).cached q).lastAppended = _
        rw [FileStorage.cached_append, if_neg hq]
        rfl

/-- An acknowledgement does not touch the logged ids. -/
theorem Fresh.ack {p : Process crates} (h : Fresh p) (peer : Peer) (a : AckMeta)
    (remaining : Option Nat) : Fresh (p.ack peer a remaining) := by
  obtain ⟨s, hnext, -, hsent⟩ := processAckFrame_sent p.manager peer a
    { written := [], remaining }
  have hstored : ∀ q, Wal.lastAppended (if a.cumAck > (p.manager.sendState peer).cumAcked then
      Wal.truncateThrough (Wal.storeAck p.manager.storage peer { cumAcked := a.cumAck }) peer
        a.cumAck
      else p.manager.storage) q = Wal.lastAppended p.manager.storage q := by
    intro q
    split
    · show ((Wal.truncateThrough (Wal.storeAck p.manager.storage peer { cumAcked := a.cumAck })
        peer a.cumAck).cached q).lastAppended = (p.manager.storage.cached q).lastAppended
      rw [FileStorage.cached_truncateThrough, FileStorage.cached_storeAck,
        FileStorage.cached_storeAck, if_pos rfl]
      by_cases hq : q = peer
      · subst hq
        rw [if_pos rfl]
        split <;> rfl
      · rw [if_neg hq, if_neg (fun hc => hq hc.1)]
    · rfl
  refine h.keep rfl (fun q => ?_) (fun q => ?_)
  · rw [show (p.ack peer a remaining).manager.storage = _ from hsent.storage]
    exact hstored q
  · by_cases hq : q = peer
    · rw [hq, show (p.ack peer a remaining).manager.sendState peer = s from hsent.sendState_eq,
        hnext]
    · exact Nat.le_of_eq (hsent.nextMsgId_other hq (hstored q)).symm

/-- A restart with an up-to-date `state.json` loses no id. -/
theorem Fresh.restart {p : Process crates} (h : Fresh p)
    (hsaved : ∀ peer, (p.manager.storage.saved peer).lastAppended
      = (p.manager.storage.cached peer).lastAppended) : Fresh p.restart := by
  have hcached : ∀ q, (p.restart.manager.storage.cached q).lastAppended
      = (p.manager.storage.cached q).lastAppended := by
    intro q
    rw [← hsaved q]
    exact congrArg PeerState.lastAppended (FileWal.state_new ..)
  refine ⟨h.nodup, fun e he => ?_, fun q => ?_⟩
  · rw [hcached]
    exact h.logged e he
  · -- no send state is left, so the next id is the one after `last_appended`
    exact Nat.lt_succ_self _

/-- **One operation.** -/
theorem Fresh.run {p : Process crates} {op : ProcessOp} (h : Fresh p) (hop : op.RestartsSaved p) :
    Fresh (op.run p) := by
  cases op with
  | send c => exact h.send c
  | ack peer a remaining => exact h.ack peer a remaining
  | restart => exact h.restart hop

/-- **Ids are not reused when every restart finds an up-to-date `state.json`.** From
a start on any directory, in any run of sends, acknowledgements and restarts of
which each restart finds, for every peer, the last logged id in `state.json`, no id
is logged twice for a peer. -/
theorem ids_never_reused (crates : Crates) (segmentBytes windowSize ackInterval : Nat)
    (ackBatchSize defaultRecvWindow : UInt32) (disk : Disk) (ops : List ProcessOp)
    (h : Along ProcessOp.run (fun p op => op.RestartsSaved p)
      (Process.start crates segmentBytes windowSize ackInterval ackBatchSize defaultRecvWindow disk)
      ops) :
    (ops.foldl ProcessOp.run (Process.start crates segmentBytes windowSize ackInterval ackBatchSize
      defaultRecvWindow disk)).appended.Nodup :=
  (Along.inv (fun _ _ hf hop => hf.run hop)
    (fresh_start segmentBytes windowSize ackInterval ackBatchSize defaultRecvWindow disk) h).nodup

/-- A short message to peer 2. -/
def shortMessage : SendCall := { peer := 2, myNodeId := 1, payload := [7], remaining := none }

/-- A process that has sent a message and got the acknowledgement. -/
def ackedProcess : Process .standard :=
  ((Process.start .standard 1024 65536 0 1 1000 ∅).send shortMessage).ack 2
    { cumAck := 1, credits := 1000 } none

/-- The acknowledgement has saved `state.json`. -/
theorem ackedProcess_saved (peer : Peer) :
    (ackedProcess.manager.storage.saved peer).lastAppended
      = (ackedProcess.manager.storage.cached peer).lastAppended := by
  by_cases hpeer : peer = 2
  · rw [hpeer]
    decide +kernel
  · -- no other peer has a directory or a cached state
    have hdisk : ackedProcess.manager.storage.disk.keys = [2] := by decide +kernel
    have hcache : ackedProcess.manager.storage.wal.peerStates.keys = [2] := by decide +kernel
    have hnot : peer ∉ [2] := fun h => hpeer (List.mem_singleton.mp h)
    unfold FileStorage.saved FileStorage.cached
    rw [Disk.saved_of_notMem (fun h => hnot (hdisk ▸ AList.mem_keys.mp h)),
      FileWal.state_of_notMem (fun h => hnot (hcache ▸ AList.mem_keys.mp h))]

/-- The first message is acknowledged before the process restarts and sends again. -/
theorem ids_never_reused_acked_first :
    let p := Process.start .standard 1024 65536 0 1 1000 ∅
    let ops := [.send shortMessage, .ack 2 { cumAck := 1, credits := 1000 } none, .restart,
      .send shortMessage]
    Along ProcessOp.run (fun p op => op.RestartsSaved p) p ops ∧
    (ops.foldl ProcessOp.run p).appended = [(2, 1), (2, 2)] ∧
    (ops.foldl ProcessOp.run p).appended.Nodup := by
  intro p ops
  have hsaved : Along ProcessOp.run (fun p op => op.RestartsSaved p) p ops := by
    have hrestart : ProcessOp.restart.RestartsSaved ackedProcess := ackedProcess_saved
    unfold ackedProcess at hrestart
    exact ⟨trivial, trivial, hrestart, trivial, trivial⟩
  exact ⟨hsaved, by decide +kernel, ids_never_reused .standard 1024 65536 0 1 1000 ∅ ops hsaved⟩

/-- A message is sent, the process restarts, and the next message gets the same id. -/
theorem restart_reuses_id :
    let p := Process.start .standard 1024 65536 0 1 1000 ∅
    let ops := [.send shortMessage, .restart, .send shortMessage]
    (ops.foldl ProcessOp.run p).appended = [(2, 1), (2, 1)] ∧
    ¬ (ops.foldl ProcessOp.run p).appended.Nodup := by
  intro p ops
  have happ : (ops.foldl ProcessOp.run p).appended = [(2, 1), (2, 1)] := by decide +kernel
  exact ⟨happ, by rw [happ]; decide⟩

end MeshCore.Session
