import MeshCore.Session.Reliability
import Mathlib.Data.List.Range

/-!
# Message ids and the log

`send_data` takes the next id before it builds the frame, and building fails for
a payload that does not fit the frame limit. The id is then used up without a log
entry. `Counted` keeps both counts along a run: the ids logged for a peer and the
ids used up without an entry account for every id handed out, and as long as none
is missing the log holds 1, 2, 3 and so on. So the log is contiguous exactly when
every payload fits (`logged_ids_contiguous_iff`).
-/

namespace MeshCore.Session

open MeshCore.Lib MeshCore.Wire MeshCore.Storage ReliabilityManager

/-! ## When a DATA frame can be built -/

/-- The metadata of a DATA frame. -/
def dataMeta : MetaBuilder := MetaBuilder.new.insertStr "content-type" "application/x-data"

/-- The metadata encodes, and the frame (length, header, metadata length,
metadata and payload) is at most 16 MiB long. -/
def dataFits (crates : Crates) (payload : Bytes) : Bool :=
  match dataMeta.build crates with
  | .ok metaRaw => 4 + fastHeaderSize + 4 + metaRaw.length + payload.length ≤ 16 * 1024 * 1024
  | .error _ => false

/-- Whether the frame can be built depends on the payload only. -/
theorem buildData_isOk (crates : Crates) (peer : Peer) (myNodeId : UInt64) (msgId : Nat)
    (payload : Bytes) :
    (∃ bytes, buildData crates peer myNodeId msgId payload = .ok bytes) ↔
      dataFits crates payload = true := by
  have hmeta : (dataBuilder peer myNodeId msgId payload).finalMeta crates = dataMeta := by
    unfold FrameBuilder.finalMeta
    refine (if_neg ?_).trans rfl
    show ¬ Flags.empty.contains .hdrChecksum = true
    decide
  have hsize : ∀ metaRaw, ((dataBuilder peer myNodeId msgId payload).frame metaRaw
      (dataBuilder peer myNodeId msgId payload).body).encodedSize
        = 4 + fastHeaderSize + 4 + metaRaw.length + payload.length := fun _ => rfl
  unfold buildData dataFits
  rw [FrameBuilder.build_eq, hmeta]
  cases dataMeta.build crates with
  | error e => simp
  | ok metaRaw =>
    dsimp only
    rw [hsize, decide_eq_true_iff]
    by_cases hle : 4 + fastHeaderSize + 4 + metaRaw.length + payload.length ≤ 16 * 1024 * 1024
    · rw [if_neg (Nat.not_lt.mpr hle)]
      exact ⟨fun _ => hle, fun _ => ⟨_, rfl⟩⟩
    · rw [if_pos (Nat.lt_of_not_le hle)]
      exact ⟨fun ⟨_, h⟩ => absurd h (by simp), fun h => absurd h hle⟩

/-! ## Runs of `send_data` -/

/-- One call of `send_data`, with the number of writes its connection allows. -/
structure SendCall where
  peer : Peer
  myNodeId : UInt64
  payload : Bytes
  remaining : Option Nat

/-- The call made on a manager. -/
def SendCall.run {σ : Type} [Wal σ] (crates : Crates) (c : SendCall) (m : ReliabilityManager σ) :
    Except ReliabilityError Unit × ReliabilityManager σ × Writer :=
  m.sendData crates c.peer c.myNodeId c.payload { written := [], remaining := c.remaining }

/-- The manager after a sequence of calls. -/
def sendAll (crates : Crates) (m : ReliabilityManager MemoryStorage) (calls : List SendCall) :
    ReliabilityManager MemoryStorage :=
  calls.foldl (fun m c => (c.run crates m).2.1) m

/-- The ids in the log of a peer, in log order. -/
def loggedIds (m : ReliabilityManager MemoryStorage) (peer : Peer) : List Nat :=
  (m.storage.wal.entriesOf peer).map WalEntry.msgId

/-- A call logs its frame under the next id if the payload fits. -/
theorem sendAppends_eq {σ : Type} [Wal σ] (crates : Crates) (m : ReliabilityManager σ) (peer : Peer)
    (myNodeId : UInt64) (payload : Bytes) :
    (m.sendAppends crates peer myNodeId payload).map WalEntry.msgId
      = if dataFits crates payload then some (m.sendState peer).nextMsgId else none := by
  have hok := buildData_isOk crates peer myNodeId (m.sendState peer).nextMsgId payload
  unfold sendAppends
  cases hb : buildData crates peer myNodeId (m.sendState peer).nextMsgId payload with
  | ok bytes =>
    rw [if_pos (hok.mp ⟨bytes, hb⟩)]
    rfl
  | error e =>
    rw [if_neg]
    · rfl
    · intro hfits
      obtain ⟨bytes, hbytes⟩ := hok.mpr hfits
      rw [hb] at hbytes
      exact absurd hbytes (by simp)

/-- What a call does to the log and the next id of a peer. -/
theorem run_ids (crates : Crates) (c : SendCall) (m : ReliabilityManager MemoryStorage)
    (peer : Peer) :
    loggedIds (c.run crates m).2.1 peer
      = (if c.peer = peer ∧ dataFits crates c.payload then
          loggedIds m peer ++ [(m.sendState peer).nextMsgId] else loggedIds m peer) ∧
    ((c.run crates m).2.1.sendState peer).nextMsgId
      = (m.sendState peer).nextMsgId + if c.peer = peer then 1 else 0 := by
  obtain ⟨s, hnext, -, hsent⟩ := sendData_sent crates m c.peer c.myNodeId c.payload
    { written := [], remaining := c.remaining }
  have happ := sendAppends_eq crates m c.peer c.myNodeId c.payload
  have hst : (c.run crates m).2.1.storage = _ := hsent.storage
  by_cases hp : c.peer = peer
  · subst hp
    refine ⟨?_, ?_⟩
    · unfold loggedIds
      rw [hst]
      cases hfits : dataFits crates c.payload with
      | true =>
        rw [hfits, if_pos rfl] at happ
        obtain ⟨entry, hentry, hid⟩ := Option.map_eq_some_iff.mp happ
        rw [hentry, if_pos ⟨rfl, rfl⟩]
        show List.map _ ((m.storage.wal.append c.peer entry).entriesOf c.peer) = _
        rw [MemoryWal.entriesOf_append, if_pos rfl, List.map_append, List.map_singleton, hid]
      | false =>
        rw [hfits, if_neg Bool.false_ne_true, Option.map_eq_none_iff] at happ
        rw [happ, if_neg (fun h => Bool.false_ne_true h.2)]
    · rw [show (c.run crates m).2.1.sendState c.peer = s from hsent.sendState_eq, hnext, if_pos rfl]
  · -- another peer's log and state are not touched
    refine ⟨?_, ?_⟩
    · rw [if_neg (fun h => hp h.1)]
      unfold loggedIds
      rw [hst]
      cases m.sendAppends crates c.peer c.myNodeId c.payload with
      | none => rfl
      | some entry =>
        show List.map _ ((m.storage.wal.append c.peer entry).entriesOf peer) = _
        rw [MemoryWal.entriesOf_append, if_neg (fun h => hp h.symm)]
    · rw [if_neg hp, Nat.add_zero]
      refine hsent.nextMsgId_other (fun h => hp h.symm) ?_
      cases m.sendAppends crates c.peer c.myNodeId c.payload with
      | none => rfl
      | some entry =>
        show (m.storage.wal.append c.peer entry).lastAppended peer = _
        rw [MemoryWal.lastAppended_append, if_neg (fun h => hp h.symm)]
        rfl

/-- The calls to a peer whose payload does not fit. -/
def oversized (crates : Crates) (peer : Peer) (calls : List SendCall) : List SendCall :=
  calls.filter fun c => c.peer = peer ∧ dataFits crates c.payload = false

/-- The ids handed out for a peer: those logged, and those used up by calls that
failed. While there are none of the latter, the log counts from 1. -/
structure Counted (peer : Peer) (failed : Nat) (m : ReliabilityManager MemoryStorage) : Prop where
  total : (loggedIds m peer).length + failed + 1 = (m.sendState peer).nextMsgId
  contiguous : failed = 0 →
    loggedIds m peer = List.range' 1 ((m.sendState peer).nextMsgId - 1)

/-- **One call.** -/
theorem Counted.run {peer : Peer} {failed : Nat} {m : ReliabilityManager MemoryStorage}
    (h : Counted peer failed m) (crates : Crates) (c : SendCall) :
    Counted peer (failed + (oversized crates peer [c]).length) (c.run crates m).2.1 := by
  obtain ⟨hids, hnext⟩ := run_ids crates c m peer
  have htotal := h.total
  unfold oversized
  by_cases hp : c.peer = peer
  · cases hfits : dataFits crates c.payload with
    | true =>
      rw [if_pos ⟨hp, hfits⟩] at hids
      rw [if_pos hp] at hnext
      simp only [List.filter_cons, hfits, hp, true_and, Bool.true_eq_false, decide_false,
        Bool.false_eq_true, if_false, List.filter_nil, List.length_nil, Nat.add_zero]
      refine ⟨?_, fun hzero => ?_⟩
      · rw [hids, hnext, List.length_append, List.length_singleton]
        omega
      · have hpos : (m.sendState peer).nextMsgId - 1 + 1 = (m.sendState peer).nextMsgId := by omega
        rw [hids, hnext, h.contiguous hzero, Nat.add_sub_cancel, ← hpos, List.range'_concat,
          Nat.add_sub_cancel]
        congr 1
        congr 1
        omega
    | false =>
      -- an id is used up, and the log does not grow
      rw [if_neg (fun hc => by rw [hfits] at hc; exact Bool.false_ne_true hc.2)] at hids
      rw [if_pos hp] at hnext
      simp only [List.filter_cons, hfits, hp, true_and, decide_true, if_true, List.filter_nil,
        List.length_singleton]
      exact ⟨by rw [hids, hnext]; omega, fun hzero => absurd hzero (Nat.succ_ne_zero _)⟩
  · rw [if_neg (fun hc => hp hc.1)] at hids
    rw [if_neg hp, Nat.add_zero] at hnext
    simp only [List.filter_cons, hp, false_and, decide_false, Bool.false_eq_true, if_false,
      List.filter_nil, List.length_nil, Nat.add_zero]
    exact ⟨by rw [hids, hnext]; exact htotal, by rw [hids, hnext]; exact h.contiguous⟩

/-- **A run of calls.** -/
theorem Counted.sendAll {peer : Peer} {failed : Nat} {m : ReliabilityManager MemoryStorage}
    (h : Counted peer failed m) (crates : Crates) (calls : List SendCall) :
    Counted peer (failed + (oversized crates peer calls).length) (sendAll crates m calls) := by
  induction calls generalizing failed m with
  | nil => exact h
  | cons c calls ih =>
    have hstep := ih (h.run crates c)
    have hsplit : oversized crates peer (c :: calls)
        = oversized crates peer [c] ++ oversized crates peer calls := by
      unfold oversized
      rw [← List.filter_append]
      rfl
    rw [hsplit, List.length_append, ← Nat.add_assoc]
    exact hstep

theorem counted_new (windowSize ackInterval : Nat) (ackBatchSize defaultRecvWindow : UInt32)
    (peer : Peer) :
    Counted peer 0
      (.new (MemoryStorage.new windowSize) ackInterval ackBatchSize defaultRecvWindow) :=
  ⟨rfl, fun _ => rfl⟩

/-- **The logged ids are contiguous exactly when every payload fits.** After any
sequence of calls on a fresh manager, the ids logged for a peer are 1, 2, ... up
to the last one handed out if and only if every payload sent to that peer fits
the frame limit. -/
theorem logged_ids_contiguous_iff (crates : Crates) (windowSize ackInterval : Nat)
    (ackBatchSize defaultRecvWindow : UInt32) (peer : Peer) (calls : List SendCall) :
    let m := sendAll crates
      (.new (MemoryStorage.new windowSize) ackInterval ackBatchSize defaultRecvWindow) calls
    loggedIds m peer = List.range' 1 ((m.sendState peer).nextMsgId - 1) ↔
      ∀ c ∈ calls, c.peer = peer → dataFits crates c.payload = true := by
  intro m
  have h : Counted peer (0 + (oversized crates peer calls).length) m :=
    (counted_new windowSize ackInterval ackBatchSize defaultRecvWindow peer).sendAll crates calls
  have hnone : oversized crates peer calls = [] ↔
      ∀ c ∈ calls, c.peer = peer → dataFits crates c.payload = true := by
    unfold oversized
    rw [List.filter_eq_nil_iff]
    refine forall₂_congr fun c _ => ?_
    simp only [decide_eq_true_iff, not_and, Bool.not_eq_false]
  rw [← hnone]
  refine ⟨fun hids => ?_, fun hempty => h.contiguous (by rw [hempty]; rfl)⟩
  -- the failed calls are the ids handed out but not logged
  have htotal := h.total
  rw [hids, List.length_range'] at htotal
  exact List.eq_nil_of_length_eq_zero (by omega)

/-- A payload of 16 MiB does not fit, whatever the metadata. -/
theorem dataFits_huge (crates : Crates) :
    dataFits crates (List.replicate (16 * 1024 * 1024) 0) = false := by
  unfold dataFits
  cases dataMeta.build crates with
  | error e => rfl
  | ok metaRaw =>
    dsimp only
    rw [decide_eq_false_iff_not, List.length_replicate]
    omega

/-- One call with a payload of 16 MiB fails, and leaves an empty log and the next
id at 2. -/
theorem failed_send_skips_id :
    let c : SendCall :=
      { peer := 2, myNodeId := 1, payload := List.replicate (16 * 1024 * 1024) 0
        remaining := none }
    let m := ReliabilityManager.new (MemoryStorage.new 65536) 0 1 1000
    loggedIds (c.run .standard m).2.1 2 = [] ∧
    ((c.run .standard m).2.1.sendState 2).nextMsgId = 2 ∧
    loggedIds (c.run .standard m).2.1 2
      ≠ List.range' 1 (((c.run .standard m).2.1.sendState 2).nextMsgId - 1) := by
  intro c m
  obtain ⟨hids, hnext⟩ := run_ids .standard c m 2
  rw [if_neg (fun h => by rw [show dataFits _ c.payload = false from dataFits_huge _] at h
                          exact Bool.false_ne_true h.2)] at hids
  have hnext2 : ((c.run .standard m).2.1.sendState 2).nextMsgId = 2 := hnext
  have hnil : loggedIds (c.run .standard m).2.1 2 = [] := hids
  exact ⟨hnil, hnext2, by rw [hnil, hnext2]; decide⟩

end MeshCore.Session
