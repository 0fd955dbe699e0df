import MeshCore.Storage.File
import MeshCore.Lib.Runs

/-!
# The two owners of `state.json`

`FileWal` writes the whole record from its cache, in which `cum_processed` has
the value it had when the process started; `FileDedup` reads the file and
changes `cum_processed` only. So a save by `FileDedup` never takes a counter
back, and a save by `FileWal` never takes its own two counters back, but it
takes `cum_processed` back when `FileDedup` has saved a greater one since.

`FileOp` lists the operations of both stores and `FileOp.run_cases` says what
one of them does for a peer. `Consistent` relates the file to the two caches; it
holds after every start and along every run, and under it a step keeps the file
from decreasing exactly when it is not such a save.
-/

namespace MeshCore.Storage

open MeshCore.Lib MeshCore.Wire

variable {crates : Crates}

/-! ## Operations -/

/-- The operations of `FileWal` and `FileDedup` that write. -/
inductive FileOp where
  | append (peer : Peer) (entry : WalEntry)
  | storeAck (peer : Peer) (ack : AckState)
  | truncateThrough (peer : Peer) (upToInclusive : Nat)
  | markProcessed (peer : Peer) (msgId : Nat)
  | advanceCum (peer : Peer) (id : Nat)
  | snapshot

namespace FileOp

/-- The operation made on a storage. -/
def run (s : FileStorage crates) : FileOp → FileStorage crates
  | append peer entry => Wal.append s peer entry
  | storeAck peer ack => Wal.storeAck s peer ack
  | truncateThrough peer upTo => Wal.truncateThrough s peer upTo
  | markProcessed peer id => Dedup.markProcessed s peer id
  | advanceCum peer id => Dedup.advanceCum s peer id
  | snapshot => Dedup.snapshot s

/-- How a peer's log is used: ids increase, and acknowledgements do not decrease.
Truncating below the last acknowledgement does nothing, so any bound will do. -/
def InOrder (peer : Peer) (s : FileStorage crates) : FileOp → Prop
  | append q entry => q = peer → (s.cached peer).lastAppended < entry.msgId
  | storeAck q ack => q = peer → (s.cached peer).cumAcked ≤ ack.cumAcked
  | _ => True

/-- `FileWal` saves the state of the peer: an id divisible by 100 is appended, an
acknowledgement is stored, or the log is truncated beyond the last one. -/
def WalSaves (peer : Peer) (s : FileStorage crates) : FileOp → Prop
  | append q entry => peer = q ∧ entry.msgId % 100 = 0
  | storeAck q _ => peer = q
  | truncateThrough q upTo =>
    peer = q ∧ (s.disk.dir q).walDir = true ∧ upTo > (s.cached q).cumAcked
  | _ => False

end FileOp

/-- No counter of the first state is above that of the second. -/
structure PeerState.Le (a b : PeerState) : Prop where
  lastAppended : a.lastAppended ≤ b.lastAppended
  cumAcked : a.cumAcked ≤ b.cumAcked
  cumProcessed : a.cumProcessed ≤ b.cumProcessed

/-- The cached state of a peer can only grow, and `cum_processed` stays. -/
structure CacheStep (s s' : FileStorage crates) (peer : Peer) : Prop where
  lastAppended : (s.cached peer).lastAppended ≤ (s'.cached peer).lastAppended
  cumAcked : (s.cached peer).cumAcked ≤ (s'.cached peer).cumAcked
  cumProcessed : (s'.cached peer).cumProcessed = (s.cached peer).cumProcessed
  watermark : s'.watermark peer = s.watermark peer

theorem CacheStep.of_eq {s s' : FileStorage crates} {peer : Peer}
    (h : s'.cached peer = s.cached peer) (hw : s'.watermark peer = s.watermark peer) :
    CacheStep s s' peer :=
  ⟨by rw [h], by rw [h], by rw [h], hw⟩

/-- **What an operation does for a peer.** `FileWal` saves its cache, or it changes
the cache only, or the operation is one of `FileDedup`. -/
theorem FileOp.run_cases {peer : Peer} {s : FileStorage crates} {op : FileOp}
    (h : op.InOrder peer s) :
    (op.WalSaves peer s ∧ CacheStep s (op.run s) peer ∧
      (op.run s).saved peer = (op.run s).cached peer) ∨
    (¬ op.WalSaves peer s ∧ CacheStep s (op.run s) peer ∧ (op.run s).saved peer = s.saved peer) ∨
    (¬ op.WalSaves peer s ∧ FileStorage.DedupStep s (op.run s) peer) := by
  cases op with
  | append q entry =>
    have hcached := s.cached_append q peer entry
    have hsaved := s.saved_append q peer entry
    have hstep : CacheStep s (Wal.append s q entry) peer := by
      by_cases hq : peer = q
      · subst hq
        rw [if_pos rfl] at hcached
        exact ⟨by rw [hcached]; exact Nat.le_of_lt (h rfl), by rw [hcached], by rw [hcached], rfl⟩
      · rw [if_neg hq] at hcached
        exact .of_eq hcached rfl
    by_cases hsave : peer = q ∧ entry.msgId % 100 = 0
    · rw [if_pos hsave] at hsaved
      rw [if_pos hsave.1] at hcached
      exact .inl ⟨hsave, hstep, hsaved.trans hcached.symm⟩
    · rw [if_neg hsave] at hsaved
      exact .inr (.inl ⟨hsave, hstep, hsaved⟩)
  | storeAck q ack =>
    have hcached := s.cached_storeAck q peer ack
    have hsaved := s.saved_storeAck q peer ack
    by_cases hq : peer = q
    · subst hq
      rw [if_pos rfl] at hcached hsaved
      exact .inl ⟨rfl, ⟨by rw [run, hcached], by rw [run, hcached]; exact h rfl,
        by rw [run, hcached], rfl⟩, hsaved.trans hcached.symm⟩
    · rw [if_neg hq] at hcached hsaved
      exact .inr (.inl ⟨hq, .of_eq hcached rfl, hsaved⟩)
  | truncateThrough q upTo =>
    have hcached := s.cached_truncateThrough q peer upTo
    have hsaved := s.saved_truncateThrough q peer upTo
    by_cases hsave : peer = q ∧ (s.disk.dir q).walDir = true ∧ upTo > (s.cached q).cumAcked
    · rw [if_pos hsave] at hcached hsaved
      refine .inl ⟨hsave, ?_, hsaved.trans hcached.symm⟩
      obtain ⟨rfl, -, hgt⟩ := hsave
      exact ⟨by rw [run, hcached], by rw [run, hcached]; exact Nat.le_of_lt hgt,
        by rw [run, hcached], rfl⟩
    · rw [if_neg hsave] at hcached hsaved
      exact .inr (.inl ⟨hsave, .of_eq hcached rfl, hsaved⟩)
  | markProcessed q msgId => exact .inr (.inr ⟨id, s.markProcessed_step q peer msgId⟩)
  | advanceCum q cum => exact .inr (.inr ⟨id, s.advanceCum_step q peer cum⟩)
  | snapshot => exact .inr (.inr ⟨id, s.snapshot_step peer⟩)

/-! ## The file and the caches -/

/-- The file never holds more than the caches: `FileWal`'s counters are at most
those it has cached, and `cum_processed`, on disk and in `FileWal`'s cache, is at
most the watermark. -/
structure Consistent (peer : Peer) (s : FileStorage crates) : Prop where
  lastAppended : (s.saved peer).lastAppended ≤ (s.cached peer).lastAppended
  cumAcked : (s.saved peer).cumAcked ≤ (s.cached peer).cumAcked
  saved : (s.saved peer).cumProcessed ≤ s.watermark peer
  cached : (s.cached peer).cumProcessed ≤ s.watermark peer

/-- At a start both caches are loaded from the file. -/
theorem consistent_start (segmentBytes windowSize : Nat) (disk : Disk) (peer : Peer) :
    Consistent peer (FileStorage.start crates segmentBytes windowSize disk) := by
  have hwal : (FileStorage.start crates segmentBytes windowSize disk).cached peer
      = disk.saved peer :=
    FileWal.state_new segmentBytes disk peer
  have hcum : (FileStorage.start crates segmentBytes windowSize disk).watermark peer
      = (disk.saved peer).cumProcessed := FileDedup.cum_new windowSize disk peer
  exact ⟨by rw [hwal]; exact Nat.le_refl _, by rw [hwal]; exact Nat.le_refl _,
    by rw [hcum]; exact Nat.le_refl _, by rw [hwal, hcum]⟩

/-- **One operation keeps the file and the caches consistent.** -/
theorem Consistent.run {peer : Peer} {s : FileStorage crates} {op : FileOp} (h : Consistent peer s)
    (hop : op.InOrder peer s) : Consistent peer (op.run s) := by
  obtain ⟨hlast, hack, hsaved, hcached⟩ := h
  rcases FileOp.run_cases hop with ⟨-, hc, hs⟩ | ⟨-, hc, hs⟩ | ⟨-, hd⟩
  · -- the file becomes a copy of the cache
    obtain ⟨-, -, hproc, hw⟩ := hc
    exact ⟨by rw [hs], by rw [hs], by rw [hs]; omega, by omega⟩
  · obtain ⟨hlast', hack', hproc, hw⟩ := hc
    exact ⟨by rw [hs]; omega, by rw [hs]; omega, by rw [hs]; omega, by omega⟩
  · obtain ⟨hc, hw, hs⟩ := hd
    rcases hs with hs | hs
    · exact ⟨by rw [hs, hc]; exact hlast, by rw [hs, hc]; exact hack, by rw [hs]; omega,
        by rw [hc]; omega⟩
    · exact ⟨by rw [hs, hc]; exact hlast, by rw [hs, hc]; exact hack, by rw [hs],
        by rw [hc]; omega⟩

/-- An operation takes a counter on disk back exactly when `FileWal` saves and
the file has a greater `cum_processed` than its cache. -/
theorem Consistent.saved_le_iff {peer : Peer} {s : FileStorage crates} {op : FileOp}
    (h : Consistent peer s) (hop : op.InOrder peer s) :
    (s.saved peer).Le ((op.run s).saved peer) ↔
      (op.WalSaves peer s → (s.saved peer).cumProcessed ≤ (s.cached peer).cumProcessed) := by
  obtain ⟨hlast, hack, hsaved, -⟩ := h
  rcases FileOp.run_cases hop with ⟨hsave, hc, hs⟩ | ⟨hno, -, hs⟩ | ⟨hno, hd⟩
  · -- `FileWal`'s own counters only grow, so all depends on the third
    obtain ⟨hlast', hack', hproc, -⟩ := hc
    rw [hs]
    refine ⟨fun hle _ => hproc ▸ hle.cumProcessed, fun hsync => ?_⟩
    exact ⟨hlast.trans hlast', hack.trans hack', hproc ▸ hsync hsave⟩
  · rw [hs]
    exact ⟨fun _ hsave => absurd hsave hno, fun _ => ⟨Nat.le_refl _, Nat.le_refl _, Nat.le_refl _⟩⟩
  · refine ⟨fun _ hsave => absurd hsave hno, fun _ => ?_⟩
    obtain ⟨-, hw, hs⟩ := hd
    rcases hs with hs | hs
    · rw [hs]
      exact ⟨Nat.le_refl _, Nat.le_refl _, Nat.le_refl _⟩
    · rw [hs]
      exact ⟨Nat.le_refl _, Nat.le_refl _, hsaved.trans hw⟩

/-! ## Runs -/

/-- Along the run, no counter of the peer's `state.json` ever decreases. -/
def NeverDecreases (peer : Peer) : FileStorage crates → List FileOp → Prop :=
  Along FileOp.run fun s op => (s.saved peer).Le ((op.run s).saved peer)

/-- Along the run, whenever `FileWal` saves, the `cum_processed` on disk is at most
the one `FileWal` has cached. -/
def SavesInSync (peer : Peer) : FileStorage crates → List FileOp → Prop :=
  Along FileOp.run fun s op =>
    op.WalSaves peer s → (s.saved peer).cumProcessed ≤ (s.cached peer).cumProcessed

/-- **When the two owners do not undo each other.** From a start on any directory,
along any interleaving of operations that uses the peer's log in order, the
counters of the peer's `state.json` never decrease if and only if every save by
`FileWal` finds no greater `cum_processed` on disk than in its cache. -/
theorem saved_states_never_decrease_iff (crates : Crates) (segmentBytes windowSize : Nat)
    (disk : Disk) (peer : Peer) (ops : List FileOp)
    (h : Along FileOp.run (fun s op => op.InOrder peer s)
      (FileStorage.start crates segmentBytes windowSize disk) ops) :
    NeverDecreases peer (FileStorage.start crates segmentBytes windowSize disk) ops ↔
      SavesInSync peer (FileStorage.start crates segmentBytes windowSize disk) ops :=
  along_iff (fun _ _ hc hop => hc.run hop) (fun _ _ hc hop => hc.saved_le_iff hop)
    (consistent_start segmentBytes windowSize disk peer) h

/-- A message is logged and acknowledged before the watermark is first saved. -/
theorem saved_states_never_decrease_iff_acked_first :
    let s := FileStorage.start .standard 1024 65536 ∅
    let ops :=
      [.append 2 { msgId := 1, bytes := [] }, .storeAck 2 { cumAcked := 1 }, .advanceCum 2 5]
    Along FileOp.run (fun s op => op.InOrder 2 s) s ops ∧ SavesInSync 2 s ops ∧
      NeverDecreases 2 s ops := by
  intro s ops
  have hord : Along FileOp.run (fun s op => op.InOrder 2 s) s ops :=
    ⟨fun _ => by decide +kernel, fun _ => by decide +kernel, trivial, trivial⟩
  have hsync : SavesInSync 2 s ops :=
    ⟨fun _ => by decide +kernel, fun _ => by decide +kernel, False.elim, trivial⟩
  exact ⟨hord, hsync, (saved_states_never_decrease_iff .standard 1024 65536 ∅ 2 ops hord).mpr hsync⟩

/-- The watermark moves to 5 and is saved; then an acknowledgement is stored, and
the file has a watermark of 0 again. -/
theorem stored_ack_undoes_watermark :
    let s := FileStorage.start .standard 1024 65536 ∅
    let ops := [.advanceCum 2 5, .storeAck 2 { cumAcked := 1 }]
    Along FileOp.run (fun s op => op.InOrder 2 s) s ops ∧
    ((FileOp.advanceCum 2 5).run s).saved 2 = { cumProcessed := 5 } ∧
    (ops.foldl FileOp.run s).saved 2 = { cumAcked := 1 } ∧
    ¬ NeverDecreases 2 s ops := by
  intro s ops
  have hbefore : ((FileOp.advanceCum 2 5).run s).saved 2 = { cumProcessed := 5 } := by
    decide +kernel
  have hafter : (ops.foldl FileOp.run s).saved 2 = { cumAcked := 1 } := by
    decide +kernel
  refine ⟨⟨trivial, fun _ => by decide +kernel, trivial⟩, hbefore, hafter, fun h => ?_⟩
  have hle : (((FileOp.advanceCum 2 5).run s).saved 2).Le ((ops.foldl FileOp.run s).saved 2) :=
    h.2.1
  rw [hbefore, hafter] at hle
  exact absurd hle.cumProcessed (by decide)

end MeshCore.Storage
