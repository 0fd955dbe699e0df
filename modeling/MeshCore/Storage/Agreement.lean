import MeshCore.Storage.Segments

/-!
# The two backends agree

One list of operations is run on both backends through the interface `Wal`. The
files of a peer are the records appended for it, in order and cut into pieces in
some way; truncation, acknowledgments and reopening leave them as they are
(`laid_run`). The in-memory log forgets what was truncated, which a reader that
starts at or above all truncation points does not see (`memory_run`). So both
answer `range` alike (`range_agrees`), although one parses files and the other
goes through a queue.
-/

namespace MeshCore.Storage

open MeshCore.Lib MeshCore.Wire

/-- An operation on a log. To reopen is to open the directory again in a new
process, with a segment size. -/
inductive WalOp where
  | append (peer : Peer) (entry : WalEntry)
  | truncateThrough (peer : Peer) (upToInclusive : Nat)
  | storeAck (peer : Peer) (ack : AckState)
  | reopen (segmentBytes : Nat)
  deriving DecidableEq

/-- An operation on a backend, which says what reopening is. -/
def WalOp.apply {σ : Type} [Wal σ] (reopen : σ → Nat → σ) (s : σ) : WalOp → σ
  | .append peer entry => Wal.append s peer entry
  | .truncateThrough peer upToInclusive => Wal.truncateThrough s peer upToInclusive
  | .storeAck peer ack => Wal.storeAck s peer ack
  | .reopen segmentBytes => reopen s segmentBytes

/-- The operations on the file backend: what is in memory is lost at reopening. -/
def FileStorage.run {crates : Crates} (s : FileStorage crates) (ops : List WalOp) :
    FileStorage crates :=
  ops.foldl
    (WalOp.apply fun s segmentBytes =>
      .start crates segmentBytes s.dedup.tables.windowSize s.disk) s

/-- The operations on the in-memory backend, which stays open. -/
def MemoryStorage.run (s : MemoryStorage) (ops : List WalOp) : MemoryStorage :=
  ops.foldl (WalOp.apply fun s _ => s) s

/-- What is appended for a peer. -/
def appendedTo (peer : Peer) (ops : List WalOp) : List WalEntry :=
  ops.filterMap fun
    | .append dest entry => if dest = peer then some entry else none
    | _ => none

theorem appendedTo_singleton (peer dest : Peer) (entry : WalEntry) :
    appendedTo peer [.append dest entry] = if dest = peer then [entry] else [] := by
  by_cases hdest : dest = peer <;> simp [appendedTo, hdest]

theorem mem_appendedTo {peer : Peer} {ops : List WalOp} {entry : WalEntry} :
    entry ∈ appendedTo peer ops ↔ .append peer entry ∈ ops := by
  unfold appendedTo
  rw [List.mem_filterMap]
  constructor
  · rintro ⟨op, hop, hentry⟩
    cases op with
    | append dest other =>
      dsimp only at hentry
      split at hentry
      next hdest =>
        obtain rfl := Option.some.inj hentry
        exact hdest ▸ hop
      next => exact absurd hentry (by simp)
    | truncateThrough dest upTo => exact absurd hentry (by simp)
    | storeAck dest ack => exact absurd hentry (by simp)
    | reopen segmentBytes => exact absurd hentry (by simp)
  · exact fun h => ⟨_, h, if_pos rfl⟩

theorem appendedTo_append (peer : Peer) (ops ops' : List WalOp) :
    appendedTo peer (ops ++ ops') = appendedTo peer ops ++ appendedTo peer ops' :=
  List.filterMap_append ..

/-! ## The file backend -/

section File

variable {crates : Crates}

/-- The files of a peer hold these pieces, one after the other. -/
structure Laid (s : FileStorage crates) (peer : Peer) (pieces : List (List WalEntry)) : Prop where
  placed : s.wal.Placed s.disk peer
  files : s.disk.files peer = pieces.map (encodeAll crates)

theorem Laid.of_sameFiles {s s' : FileStorage crates} {peer : Peer}
    {pieces : List (List WalEntry)} (h : Laid s peer pieces)
    (hsame : FileWal.SameFiles s.wal s'.wal s.disk s'.disk peer) : Laid s' peer pieces :=
  ⟨hsame.placed h.placed, hsame.files.trans h.files⟩

/-- `append` puts the record behind all others of the peer. -/
theorem Laid.append {s : FileStorage crates} {peer : Peer} {pieces : List (List WalEntry)}
    (h : Laid s peer pieces) (entry : WalEntry) :
    ∃ pieces', Laid (Wal.append s peer entry) peer pieces' ∧
      pieces'.flatten = pieces.flatten ++ [entry] := by
  obtain ⟨hplaced, -, older, last, hopened, hwritten⟩ :=
    FileWal.files_append crates h.placed entry
  obtain ⟨-, -, hkept, hnew⟩ := FileWal.files_getOrCreate h.placed
  -- opening a segment adds an empty piece at most
  obtain ⟨opened, hfiles, hflat⟩ : ∃ opened : List (List WalEntry),
      (s.wal.getOrCreateActiveSegment s.disk peer).2.files peer
        = opened.map (encodeAll crates) ∧ opened.flatten = pieces.flatten := by
    by_cases hroom : peer ∈ s.wal.activeSegments ∨
        FileWal.HasRoom s.wal.segmentBytes (s.disk.files peer)
    · exact ⟨pieces, (hkept hroom).trans h.files, rfl⟩
    · rw [not_or] at hroom
      refine ⟨pieces ++ [[]], ?_, ?_⟩
      · rw [hnew hroom.1 hroom.2, h.files, List.map_append]
        rfl
      · rw [List.flatten_append, List.flatten_singleton, List.append_nil]
  rw [hfiles, List.map_eq_append_iff] at hopened
  obtain ⟨front, back, rfl, hfront, hback⟩ := hopened
  obtain ⟨piece, rfl, hpiece⟩ := List.map_eq_singleton_iff.mp hback
  refine ⟨front ++ [piece ++ [entry]], ⟨hplaced, hwritten.trans ?_⟩, ?_⟩
  · rw [List.map_append, List.map_singleton, hfront, encodeAll_append, encodeAll_singleton, hpiece]
  · rw [← hflat, List.flatten_append, List.flatten_append, List.flatten_singleton,
      List.flatten_singleton, List.append_assoc]

/-- Nothing is active after opening a directory. -/
theorem placed_start {disk : Disk} {peer : Peer} (h : InWalDir (disk.dir peer))
    (segmentBytes : Nat) : (FileWal.new segmentBytes disk).Placed disk peer :=
  ⟨h, fun _ hactive => absurd hactive (by simp [FileWal.new])⟩

/-- **One operation**: the records of the peer stay, in their order, and a record
appended for it comes behind them. -/
theorem Laid.step {s : FileStorage crates} {peer : Peer} {pieces : List (List WalEntry)}
    (h : Laid s peer pieces) (op : WalOp) :
    ∃ pieces', Laid (s.run [op]) peer pieces' ∧
      pieces'.flatten = pieces.flatten ++ appendedTo peer [op] := by
  have hsame : ∀ {s' : FileStorage crates}, Laid s' peer pieces → appendedTo peer [op] = [] →
      ∃ pieces', Laid s' peer pieces' ∧
        pieces'.flatten = pieces.flatten ++ appendedTo peer [op] :=
    fun hlaid hnone => ⟨pieces, hlaid, by rw [hnone, List.append_nil]⟩
  cases op with
  | append dest entry =>
    by_cases hdest : dest = peer
    · subst hdest
      rw [appendedTo_singleton, if_pos rfl]
      exact h.append entry
    · refine hsame (h.of_sameFiles ?_) (by rw [appendedTo_singleton, if_neg hdest])
      exact FileWal.sameFiles_append_other (Ne.symm hdest) s.wal s.disk entry
  | truncateThrough dest upTo =>
    exact hsame (h.of_sameFiles (FileWal.sameFiles_truncateThrough ..)) rfl
  | storeAck dest ack => exact hsame (h.of_sameFiles (FileWal.sameFiles_storeAck ..)) rfl
  | reopen segmentBytes =>
    exact hsame ⟨placed_start h.placed.walDir segmentBytes, h.files⟩ rfl

/-- **Along a run** the files of a peer are the records appended for it. -/
theorem laid_run {s : FileStorage crates} {peer : Peer} {pieces : List (List WalEntry)}
    (h : Laid s peer pieces) (ops : List WalOp) :
    ∃ pieces', Laid (s.run ops) peer pieces' ∧
      pieces'.flatten = pieces.flatten ++ appendedTo peer ops := by
  induction ops generalizing s pieces with
  | nil => exact ⟨pieces, h, (List.append_nil _).symm⟩
  | cons op ops ih =>
    obtain ⟨pieces₁, hlaid₁, hflat₁⟩ := h.step op
    obtain ⟨pieces₂, hlaid₂, hflat₂⟩ := ih hlaid₁
    refine ⟨pieces₂, hlaid₂, ?_⟩
    rw [hflat₂, hflat₁, List.append_assoc, ← appendedTo_append]
    rfl

/-- A fresh directory holds nothing. -/
theorem laid_fresh (crates : Crates) (segmentBytes windowSize : Nat) (peer : Peer) :
    Laid (FileStorage.start crates segmentBytes windowSize ∅) peer [] := by
  refine ⟨placed_start (fun _ num hmem => ?_) segmentBytes, ?_⟩
  · exact absurd hmem (AList.notMem_empty num)
  · exact HashMap.inOrder_of_empty fun num => AList.notMem_empty num

/-- What `range` makes of pieces of records that fit. -/
theorem Laid.range {s : FileStorage crates} {peer : Peer} {pieces : List (List WalEntry)}
    (h : Laid s peer pieces) (hfits : ∀ entry ∈ pieces.flatten, entry.Fits)
    (fromExclusive : Nat) (limit : Option Nat) :
    Wal.range s peer fromExclusive limit
      = .ok (MemoryWal.collect fromExclusive limit pieces.flatten []) := by
  refine FileWal.range_of_reads h.placed.walDir ?_ fromExclusive limit
  rw [h.files]
  exact reads_pieces hfits

end File

/-! ## The in-memory backend -/

/-- The entries of a peer above an id that no truncation of the peer reaches are
those appended, in order. -/
theorem memory_run {s : MemoryStorage} {peer : Peer} {fromExclusive : Nat} {ops : List WalOp}
    (hfrom : ∀ upTo, .truncateThrough peer upTo ∈ ops → upTo ≤ fromExclusive) :
    ((s.run ops).wal.entriesOf peer).filter (fun entry => entry.msgId > fromExclusive)
      = (s.wal.entriesOf peer ++ appendedTo peer ops).filter
          (fun entry => entry.msgId > fromExclusive) := by
  induction ops generalizing s with
  | nil =>
    rw [show appendedTo peer [] = [] from rfl, List.append_nil]
    rfl
  | cons op ops ih =>
    have ih := fun s => @ih s fun upTo hmem => hfrom upTo (List.mem_cons_of_mem _ hmem)
    show List.filter _ ((MemoryStorage.run _ ops).wal.entriesOf peer) = _
    rw [ih, show op :: ops = [op] ++ ops from rfl, appendedTo_append, ← List.append_assoc,
      List.filter_append, List.filter_append _ (appendedTo peer ops)]
    congr 1
    cases op with
    | append dest entry =>
      show List.filter _ ((s.wal.append dest entry).entriesOf peer) = _
      rw [MemoryWal.entriesOf_append, appendedTo_singleton]
      by_cases hdest : peer = dest
      · rw [if_pos hdest, if_pos hdest.symm, hdest]
      · rw [if_neg hdest, if_neg (Ne.symm hdest), List.append_nil]
    | truncateThrough dest upTo =>
      show List.filter _ ((s.wal.truncateThrough dest upTo).entriesOf peer) = _
      rw [MemoryWal.entriesOf_truncateThrough, show appendedTo peer [_] = [] from rfl,
        List.append_nil]
      by_cases hdest : peer = dest
      · -- what was dropped here is dropped by the filter as well
        have hle := hfrom upTo (hdest ▸ List.mem_cons_self ..)
        rw [if_pos hdest, hdest, List.filter_filter]
        refine List.filter_congr fun entry _ => ?_
        by_cases hid : entry.msgId > fromExclusive
        · have hup : entry.msgId > upTo := Nat.lt_of_le_of_lt hle hid
          simp [hid, hup]
        · simp [hid]
      · rw [if_neg hdest]
    | storeAck dest ack =>
      rw [show appendedTo peer [_] = [] from rfl, List.append_nil]
      rfl
    | reopen segmentBytes =>
      rw [show appendedTo peer [_] = [] from rfl, List.append_nil]
      rfl

/-- **The two logs agree.** After any operations on both, from any id at or above
all truncation points of the peer and with any limit, `range` returns the same
entries. -/
theorem range_agrees (crates : Crates) (segmentBytes windowSize : Nat) (ops : List WalOp)
    (hfits : ∀ peer entry, .append peer entry ∈ ops → entry.Fits) (peer : Peer)
    (fromExclusive : Nat)
    (hfrom : ∀ upTo, .truncateThrough peer upTo ∈ ops → upTo ≤ fromExclusive)
    (limit : Option Nat) :
    ∃ entries,
      Wal.range ((FileStorage.start crates segmentBytes windowSize ∅).run ops) peer fromExclusive
        limit = .ok entries ∧
      Wal.range ((MemoryStorage.new windowSize).run ops) peer fromExclusive limit
        = .ok entries := by
  obtain ⟨pieces, hlaid, hflat⟩ :=
    laid_run (laid_fresh crates segmentBytes windowSize peer) ops
  have hfits' : ∀ entry ∈ pieces.flatten, entry.Fits := by
    intro entry hentry
    rw [hflat] at hentry
    exact hfits peer entry (mem_appendedTo.mp hentry)
  refine ⟨_, hlaid.range hfits' fromExclusive limit, ?_⟩
  show Except.ok (MemoryWal.collect fromExclusive limit
    (((MemoryStorage.new windowSize).run ops).wal.entriesOf peer) []) = _
  rw [collect_filter, memory_run hfrom, hflat, ← collect_filter]
  rfl

/-- Two peers, a segment that fills up, a truncation and a reopening. -/
def sampleOps : List WalOp :=
  [.append 1 ⟨1, [7]⟩, .append 2 ⟨1, [8]⟩, .reopen 10, .append 1 ⟨2, [9, 9]⟩,
    .truncateThrough 1 1, .storeAck 1 ⟨1⟩, .append 1 ⟨3, []⟩]

theorem range_agrees_sample :
    Wal.range ((FileStorage.start .standard 10 4 ∅).run sampleOps) 1 1 (some 1)
      = .ok [⟨2, [9, 9]⟩] := by
  have hfits : ∀ peer entry, .append peer entry ∈ sampleOps → entry.Fits := by
    intro peer entry h
    simp only [sampleOps, List.mem_cons, WalOp.append.injEq, reduceCtorEq, List.not_mem_nil,
      false_or, or_false] at h
    rcases h with ⟨-, rfl⟩ | ⟨-, rfl⟩ | ⟨-, rfl⟩ | ⟨-, rfl⟩ <;> decide
  have hfrom : ∀ upTo, .truncateThrough 1 upTo ∈ sampleOps → upTo ≤ 1 := by
    intro upTo h
    simp only [sampleOps, List.mem_cons, WalOp.truncateThrough.injEq, reduceCtorEq,
      List.not_mem_nil, false_or, or_false] at h
    omega
  obtain ⟨entries, hfile, hmemory⟩ :=
    range_agrees .standard 10 4 sampleOps hfits 1 1 hfrom (some 1)
  have hvalue : Wal.range ((MemoryStorage.new 4).run sampleOps) 1 1 (some 1)
      = .ok [⟨2, [9, 9]⟩] := by decide
  rw [hfile, ← hmemory, hvalue]

end MeshCore.Storage
