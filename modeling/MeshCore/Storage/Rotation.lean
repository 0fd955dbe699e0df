import MeshCore.Lib.Runs
import MeshCore.Storage.Agreement

/-!
# How long a segment gets

`get_or_create_active_segment` looks at the length of the latest segment and starts a new one
when `segment_bytes` is reached. It does so once for each peer: the file it picks stays in
`active_segments`, and all later appends of the process go to it. So a segment stays bounded
as long as every append to one in use finds room in it (`segments_bounded`), and the first
that does not is written all the same (`append_overfull`).
-/

namespace MeshCore.Storage

open MeshCore.Lib MeshCore.Wire

variable {crates : Crates}

/-- An operation on the file backend. -/
abbrev FileStorage.step (s : FileStorage crates) (op : WalOp) : FileStorage crates :=
  WalOp.apply (fun s segmentBytes => .start crates segmentBytes s.dedup.tables.windowSize s.disk)
    s op

/-- The files hold these records in order, and each is shorter than `segment_bytes` plus the
length of its last record. -/
def SegmentsBounded (crates : Crates) (segmentBytes : Nat) (files : List Bytes)
    (entries : List WalEntry) : Prop :=
  ∃ pieces : List (List WalEntry × WalEntry),
    files = pieces.map (fun p => encodeAll crates (p.1 ++ [p.2])) ∧
    entries = pieces.flatMap (fun p => p.1 ++ [p.2]) ∧
    ∀ p ∈ pieces, (encodeAll crates (p.1 ++ [p.2])).length
      < segmentBytes + (encodeRecord crates p.2).length

/-- The append is the first for its peer since the log was opened, or finds room in the
segment in use. -/
def WalOp.FindsRoom (s : FileStorage crates) : WalOp → Prop
  | .append peer _ =>
    peer ∈ s.wal.activeSegments → FileWal.HasRoom s.wal.segmentBytes (s.disk.files peer)
  | _ => True

/-! ## One operation -/

theorem step_segmentBytes {s : FileStorage crates} {op : WalOp}
    (h : ∀ n, op = .reopen n → n = s.wal.segmentBytes) :
    (s.step op).wal.segmentBytes = s.wal.segmentBytes := by
  cases op with
  | append peer entry =>
    show (s.wal.getOrCreateActiveSegment s.disk peer).1.segmentBytes = _
    unfold FileWal.getOrCreateActiveSegment
    split
    · rfl
    · rfl
  | truncateThrough peer upTo =>
    show (s.wal.truncateThrough s.disk peer upTo).1.segmentBytes = _
    unfold FileWal.truncateThrough
    split
    · dsimp only
      split
      · rfl
      · rfl
    · rfl
  | storeAck peer ack => rfl
  | reopen segmentBytes => exact h segmentBytes rfl

/-- A new last file with one record, when there was room for none. -/
theorem SegmentsBounded.push {segmentBytes : Nat} {files : List Bytes} {entries : List WalEntry}
    (h : SegmentsBounded crates segmentBytes files entries) (hpos : 1 ≤ segmentBytes)
    (entry : WalEntry) :
    SegmentsBounded crates segmentBytes (files ++ [encodeRecord crates entry])
      (entries ++ [entry]) := by
  obtain ⟨pieces, hfiles, hentries, hbound⟩ := h
  refine ⟨pieces ++ [([], entry)], ?_, ?_, ?_⟩
  · rw [hfiles, List.map_append, List.map_singleton, List.nil_append, encodeAll_singleton]
  · rw [hentries, List.flatMap_append, List.flatMap_singleton, List.nil_append]
  · intro p hp
    rcases List.mem_append.mp hp with hp | hp
    · exact hbound p hp
    · rw [List.mem_singleton.mp hp, List.nil_append, encodeAll_singleton]
      omega

/-- One more record in the last file, which had room. -/
theorem SegmentsBounded.extend {segmentBytes : Nat} {older : List Bytes} {last : Bytes}
    {entries : List WalEntry} (h : SegmentsBounded crates segmentBytes (older ++ [last]) entries)
    (hroom : last.length < segmentBytes) (entry : WalEntry) :
    SegmentsBounded crates segmentBytes (older ++ [last ++ encodeRecord crates entry])
      (entries ++ [entry]) := by
  obtain ⟨pieces, hfiles, hentries, hbound⟩ := h
  obtain ⟨front, back, hpieces, hfront, hback⟩ := List.map_eq_append_iff.mp hfiles.symm
  obtain ⟨p, hp, hlast⟩ := List.map_eq_singleton_iff.mp hback
  subst hpieces hp
  refine ⟨front ++ [(p.1 ++ [p.2], entry)], ?_, ?_, ?_⟩
  · rw [List.map_append, List.map_singleton, hfront, encodeAll_append, encodeAll_singleton, hlast]
  · rw [hentries, List.flatMap_append, List.flatMap_append, List.flatMap_singleton,
      List.flatMap_singleton, List.append_assoc]
  · intro q hq
    rcases List.mem_append.mp hq with hq | hq
    · exact hbound q (List.mem_append_left _ hq)
    · rw [List.mem_singleton.mp hq, encodeAll_append, encodeAll_singleton, hlast,
        List.length_append]
      omega

/-- The file that an append goes to: the last one if it is in use or has room, and otherwise
a new one. -/
theorem append_files_cases {s : FileStorage crates} {peer : Peer}
    (h : s.wal.Placed s.disk peer) (entry : WalEntry) :
    ((peer ∈ s.wal.activeSegments ∨ FileWal.HasRoom s.wal.segmentBytes (s.disk.files peer)) ∧
      ∃ older last, s.disk.files peer = older ++ [last] ∧
        (s.step (.append peer entry)).disk.files peer
          = older ++ [last ++ encodeRecord crates entry]) ∨
    (s.step (.append peer entry)).disk.files peer
      = s.disk.files peer ++ [encodeRecord crates entry] := by
  obtain ⟨-, -, older, last, hopened, hwritten⟩ := FileWal.files_append crates h entry
  obtain ⟨-, -, hkept, hnew⟩ := FileWal.files_getOrCreate h
  by_cases hused : peer ∈ s.wal.activeSegments ∨
      FileWal.HasRoom s.wal.segmentBytes (s.disk.files peer)
  · exact Or.inl ⟨hused, older, last, (hkept hused).symm.trans hopened, hwritten⟩
  · rw [not_or] at hused
    obtain ⟨hfiles, hlast⟩ :=
      List.append_singleton_inj.mp ((hnew hused.1 hused.2).symm.trans hopened)
    refine Or.inr (hwritten.trans ?_)
    rw [← hfiles, ← hlast, List.nil_append]

/-- **An append that finds room keeps the files bounded.** -/
theorem SegmentsBounded.append {s : FileStorage crates} {peer : Peer} {entries : List WalEntry}
    (h : SegmentsBounded crates s.wal.segmentBytes (s.disk.files peer) entries)
    (hplaced : s.wal.Placed s.disk peer) (hpos : 1 ≤ s.wal.segmentBytes) {entry : WalEntry}
    (hroom : (WalOp.append peer entry).FindsRoom s) :
    SegmentsBounded crates s.wal.segmentBytes
      ((s.step (.append peer entry)).disk.files peer) (entries ++ [entry]) := by
  rcases append_files_cases hplaced entry with ⟨hused, older, last, hfiles, hwritten⟩ | hwritten
  · have hlast : last.length < s.wal.segmentBytes := by
      rw [← FileWal.hasRoom_append_singleton, ← hfiles]
      exact hused.elim hroom id
    rw [hwritten]
    exact (hfiles ▸ h).extend hlast entry
  · rw [hwritten]
    exact h.push hpos entry

/-- **An append to a segment in use that has no room** is written to it all the same. -/
theorem append_overfull {s : FileStorage crates} {peer : Peer} {entry : WalEntry}
    (hplaced : s.wal.Placed s.disk peer) (hfull : ¬ (WalOp.append peer entry).FindsRoom s) :
    ∃ older last, s.wal.segmentBytes ≤ last.length ∧ s.disk.files peer = older ++ [last] ∧
      (s.step (.append peer entry)).disk.files peer
        = older ++ [last ++ encodeRecord crates entry] := by
  obtain ⟨hused, hroom⟩ := Classical.not_imp.mp hfull
  obtain ⟨-, -, older, last, hopened, hwritten⟩ := FileWal.files_append crates hplaced entry
  obtain ⟨-, -, hkept, -⟩ := FileWal.files_getOrCreate hplaced
  have hfiles : s.disk.files peer = older ++ [last] :=
    (hkept (Or.inl hused)).symm.trans hopened
  refine ⟨older, last, ?_, hfiles, hwritten⟩
  rw [hfiles, FileWal.hasRoom_append_singleton] at hroom
  exact Nat.le_of_not_lt hroom

/-! ## Runs -/

/-- What a run keeps. -/
structure Rotates (s : FileStorage crates) (segmentBytes : Nat) (peer : Peer)
    (entries : List WalEntry) : Prop where
  size : s.wal.segmentBytes = segmentBytes
  placed : s.wal.Placed s.disk peer
  bounded : SegmentsBounded crates segmentBytes (s.disk.files peer) entries

theorem Rotates.step {s : FileStorage crates} {segmentBytes : Nat} {peer : Peer}
    {entries : List WalEntry} (h : Rotates s segmentBytes peer entries) (hpos : 1 ≤ segmentBytes)
    {op : WalOp} (hsize : ∀ n, op = .reopen n → n = segmentBytes) (hroom : op.FindsRoom s) :
    Rotates (s.step op) segmentBytes peer (entries ++ appendedTo peer [op]) := by
  obtain ⟨hsame, hplaced, hbounded⟩ := h
  subst hsame
  have hsegment := step_segmentBytes hsize
  -- an operation that leaves the files of the peer as they are
  have hother : (s.step op).wal.Placed (s.step op).disk peer →
      (s.step op).disk.files peer = s.disk.files peer → appendedTo peer [op] = [] →
      Rotates (s.step op) s.wal.segmentBytes peer (entries ++ appendedTo peer [op]) := by
    intro hplaced' hfiles hnone
    refine ⟨hsegment, hplaced', ?_⟩
    rw [hfiles, hnone, List.append_nil]
    exact hbounded
  cases op with
  | append dest entry =>
    by_cases hdest : dest = peer
    · subst hdest
      rw [appendedTo_singleton, if_pos rfl]
      exact ⟨hsegment, (FileWal.files_append crates hplaced entry).1,
        hbounded.append hplaced hpos hroom⟩
    · have hsame : FileWal.SameFiles s.wal (s.wal.append crates s.disk dest entry).1 s.disk
          (s.wal.append crates s.disk dest entry).2 peer :=
        FileWal.sameFiles_append_other (Ne.symm hdest) s.wal s.disk entry
      exact hother (hsame.placed hplaced) hsame.files (by rw [appendedTo_singleton, if_neg hdest])
  | truncateThrough dest upTo =>
    have hsame := FileWal.sameFiles_truncateThrough s.wal s.disk dest peer upTo
    exact hother (hsame.placed hplaced) hsame.files rfl
  | storeAck dest ack =>
    have hsame := FileWal.sameFiles_storeAck s.wal s.disk dest peer ack
    exact hother (hsame.placed hplaced) hsame.files rfl
  | reopen n => exact hother (placed_start hplaced.walDir n) rfl rfl

theorem Rotates.run {s : FileStorage crates} {segmentBytes : Nat} {peer : Peer}
    {entries : List WalEntry} (h : Rotates s segmentBytes peer entries) (hpos : 1 ≤ segmentBytes)
    {ops : List WalOp} (hsize : ∀ n, .reopen n ∈ ops → n = segmentBytes)
    (hroom : Along FileStorage.step WalOp.FindsRoom s ops) :
    Rotates (s.run ops) segmentBytes peer (entries ++ appendedTo peer ops) := by
  induction ops generalizing s entries with
  | nil =>
    rw [show appendedTo peer [] = [] from rfl, List.append_nil]
    exact h
  | cons op ops ih =>
    have hstep := h.step hpos (fun n hn => hsize n (hn ▸ List.mem_cons_self ..)) hroom.1
    have hrest := ih hstep (fun n hn => hsize n (List.mem_cons_of_mem op hn)) hroom.2
    rw [show op :: ops = [op] ++ ops from rfl, appendedTo_append, ← List.append_assoc]
    exact hrest

/-- **When segments are bounded.** In every state of a run from a fresh directory, reopenings
with the same `segment_bytes` included, in which every append is the first of its peer since
the log was opened or finds room in the segment in use, every segment file is shorter than
`segment_bytes` plus its last record. -/
theorem segments_bounded (crates : Crates) (segmentBytes windowSize : Nat)
    (hpos : 1 ≤ segmentBytes) (ops : List WalOp)
    (hsize : ∀ n, .reopen n ∈ ops → n = segmentBytes)
    (hroom : Along FileStorage.step WalOp.FindsRoom
      (FileStorage.start crates segmentBytes windowSize ∅) ops)
    (done : List WalOp) (hdone : done <+: ops) (peer : Peer) :
    SegmentsBounded crates segmentBytes
      (((FileStorage.start crates segmentBytes windowSize ∅).run done).disk.files peer)
      (appendedTo peer done) := by
  obtain ⟨rest, hrest⟩ := hdone
  rw [← hrest] at hroom hsize
  have hfresh : Rotates (FileStorage.start crates segmentBytes windowSize ∅) segmentBytes peer [] :=
    ⟨rfl, (laid_fresh crates segmentBytes windowSize peer).placed, [],
      (laid_fresh crates segmentBytes windowSize peer).files, rfl, fun _ hp => absurd hp (by simp)⟩
  exact (hfresh.run hpos (fun n hn => hsize n (List.mem_append_left _ hn))
    (along_append.mp hroom).1).bounded

/-- Two records, each the first of the peer since the log was opened. -/
def reopenedBetween : List WalOp :=
  [.append 1 ⟨1, [7]⟩, .reopen 10, .append 1 ⟨2, [8, 8]⟩]

theorem segments_bounded_reopened :
    SegmentsBounded .standard 10
      (((FileStorage.start .standard 10 4 ∅).run reopenedBetween).disk.files 1)
      [⟨1, [7]⟩, ⟨2, [8, 8]⟩] := by
  refine segments_bounded .standard 10 4 (by omega) reopenedBetween ?_ ?_ reopenedBetween
    (List.prefix_refl _) 1
  · intro n hn
    simp only [reopenedBetween, List.mem_cons, WalOp.reopen.injEq, reduceCtorEq, List.not_mem_nil,
      false_or, or_false] at hn
    exact hn
  · refine ⟨fun hused => ?_, trivial, fun hused => ?_, trivial⟩
    · exact absurd hused (AList.notMem_empty 1)
    · exact absurd hused (AList.notMem_empty 1)

/-- With segments of one byte the second record goes to the same file as the first. -/
theorem segments_unbounded :
    ¬ ∀ (segmentBytes windowSize : Nat), 1 ≤ segmentBytes → ∀ ops : List WalOp,
      (∀ n, .reopen n ∈ ops → n = segmentBytes) → ∀ peer : Peer,
      SegmentsBounded .standard segmentBytes
        (((FileStorage.start .standard segmentBytes windowSize ∅).run ops).disk.files peer)
        (appendedTo peer ops) := by
  intro h
  obtain ⟨pieces, hfiles, hentries, hbound⟩ :=
    h 1 4 (Nat.le_refl 1) [.append 1 ⟨1, [7]⟩, .append 1 ⟨2, [8, 8]⟩] (by simp) 1
  have hlength := congrArg List.length hfiles
  rw [List.length_map] at hlength
  obtain ⟨p, rfl⟩ := List.length_eq_one_iff.mp hlength.symm
  -- one file, and so both records are in it
  rw [List.flatMap_singleton] at hentries
  have hp := hbound p (List.mem_singleton_self p)
  obtain ⟨hfirst, hsecond⟩ := List.append_singleton_inj.mp
    (show [⟨1, [7]⟩] ++ [⟨2, [8, 8]⟩] = p.1 ++ [p.2] from hentries)
  rw [encodeAll_append, encodeAll_singleton, List.length_append, ← hfirst, encodeAll_singleton,
    encodeRecord_length] at hp
  have hsize : SegmentHeader.size = 16 := rfl
  omega

end MeshCore.Storage
