import MeshCore.Lib.InOrder
import MeshCore.Storage.Records

/-!
# The segment files of a peer

`range` reads the segment files by ascending number, so what matters of a
directory is the list of their contents in that order (`Disk.files`). `append`
writes to the end of the last one, or opens a new one behind it: the active
segment always has the greatest number (`Placed`). `files_append` says this of
`append`, `range_of_reads` and `range_eq_ok` say what `range` makes of the files,
and the numbers are not looked at again.

Mirroring notes:
- The counter behind `fsync_every` is left out. It decides when the operating
  system is asked to write, not what is in the file.
-/

namespace MeshCore.Storage

open MeshCore.Lib MeshCore.Wire

variable {crates : Crates}

/-! ## The files in order -/

/-- The segment files of a peer, in the order in which `range` reads them. -/
def Disk.files (disk : Disk) (peer : Peer) : List Bytes := (disk.dir peer).segments.inOrder

theorem Disk.dir_insert (disk : Disk) (peer q : Peer) (dir : PeerDir) :
    Disk.dir (disk.insert peer dir) q = if q = peer then dir else disk.dir q := by
  unfold Disk.dir
  rw [HashMap.lookup_insert_ite]
  split <;> rfl

/-- Segments are in a `wal` directory. -/
def InWalDir (dir : PeerDir) : Prop := dir.walDir = false → ∀ num, num ∉ dir.segments

namespace FileWal

theorem readSegments_records (dir : PeerDir) (fromExclusive : Nat) (limit : Option Nat)
    {nums : List Nat} {pieces : List (List WalEntry)}
    (h : List.Forall₂ (Reads crates)
      (nums.map fun num => (dir.segments.lookup num).getD []) pieces) (results : List WalEntry) :
    readSegments crates dir fromExclusive limit nums results
      = .ok (collectSegment fromExclusive limit pieces.flatten results).1 := by
  induction nums generalizing pieces results with
  | nil =>
    cases h
    rfl
  | cons num nums ih =>
    cases h with
    | cons hpiece hrest =>
      rw [readSegments, readSegment_records fromExclusive limit hpiece (Nat.le_refl _),
        List.flatten_cons, collectSegment_append]
      rcases hcol : collectSegment fromExclusive limit _ results with ⟨found, reached⟩
      cases reached with
      | true => rfl
      | false => exact ih hrest found

theorem readSegments_eq_ok {dir : PeerDir} {fromExclusive : Nat} {nums : List Nat}
    {results found : List WalEntry}
    (h : readSegments crates dir fromExclusive none nums results = .ok found) :
    ∃ pieces, List.Forall₂ (Reads crates)
        (nums.map fun num => (dir.segments.lookup num).getD []) pieces ∧
      found = results ++ pieces.flatten.filter fun entry => entry.msgId > fromExclusive := by
  induction nums generalizing results with
  | nil => exact ⟨[], .nil, by rw [← Except.ok.inj h]; exact (List.append_nil _).symm⟩
  | cons num nums ih =>
    rw [readSegments] at h
    split at h
    next => exact absurd h (by simp)
    next hread =>
      obtain ⟨hreached, -⟩ := readSegment_eq_ok (Nat.le_refl _) hread
      exact absurd hreached (by simp)
    next mid hread =>
      obtain ⟨-, piece, hpiece, hmid⟩ := readSegment_eq_ok (Nat.le_refl _) hread
      obtain ⟨pieces, hpieces, hfound⟩ := ih h
      refine ⟨piece :: pieces, .cons hpiece hpieces, ?_⟩
      rw [hfound, hmid, List.flatten_cons, List.filter_append, List.append_assoc]

/-- **`range` on readable files** goes through their records as the in-memory log
goes through its entries. -/
theorem range_of_reads {disk : Disk} {peer : Peer} (hdir : InWalDir (disk.dir peer))
    {pieces : List (List WalEntry)} (h : List.Forall₂ (Reads crates) (disk.files peer) pieces)
    (fromExclusive : Nat) (limit : Option Nat) :
    range crates disk peer fromExclusive limit
      = .ok (MemoryWal.collect fromExclusive limit pieces.flatten []) := by
  unfold range
  by_cases hwal : (disk.dir peer).walDir = true
  · unfold Disk.files at h
    rw [← HashMap.map_getD_eq_inOrder _ []] at h
    rw [if_pos hwal, collect_eq_collectSegment]
    exact readSegments_records _ fromExclusive limit h []
  · -- without a directory there are no files
    have hempty := HashMap.inOrder_of_empty (hdir (by simpa using hwal))
    rw [Disk.files, hempty, List.forall₂_nil_left_iff] at h
    rw [if_neg hwal, h]
    rfl

/-- **`range` without a limit** succeeds on readable files only. -/
theorem range_eq_ok {disk : Disk} {peer : Peer} (hdir : InWalDir (disk.dir peer))
    {fromExclusive : Nat} {found : List WalEntry}
    (h : range crates disk peer fromExclusive none = .ok found) :
    ∃ pieces, List.Forall₂ (Reads crates) (disk.files peer) pieces ∧
      found = pieces.flatten.filter fun entry => entry.msgId > fromExclusive := by
  unfold range at h
  by_cases hwal : (disk.dir peer).walDir = true
  · rw [if_pos hwal] at h
    obtain ⟨pieces, hpieces, hfound⟩ := readSegments_eq_ok h
    rw [HashMap.map_getD_eq_inOrder] at hpieces
    exact ⟨pieces, hpieces, hfound⟩
  · have hempty := HashMap.inOrder_of_empty (hdir (by simpa using hwal))
    rw [if_neg hwal] at h
    rw [Disk.files, hempty]
    exact ⟨[], .nil, (Except.ok.inj h).symm⟩

/-- **Reading everything**: the answer is what the files hold, and there is one only
if each of them can be read to its end. -/
theorem range_eq_ok_iff {disk : Disk} {peer : Peer} (hdir : InWalDir (disk.dir peer))
    {fromExclusive : Nat} {found : List WalEntry} :
    range crates disk peer fromExclusive none = .ok found ↔
      ∃ pieces, List.Forall₂ (Reads crates) (disk.files peer) pieces ∧
        found = pieces.flatten.filter fun entry => entry.msgId > fromExclusive := by
  refine ⟨range_eq_ok hdir, ?_⟩
  rintro ⟨pieces, hpieces, rfl⟩
  rw [range_of_reads hdir hpieces, MemoryWal.collect_none, List.nil_append]

/-! ## What `append` does to the files -/

/-- Segments are in a `wal` directory, and the active one has the greatest number. -/
structure Placed (w : FileWal) (disk : Disk) (peer : Peer) : Prop where
  walDir : InWalDir (disk.dir peer)
  active : ∀ num, w.activeSegments.lookup peer = some num →
    num ∈ (disk.dir peer).segments ∧ HashMap.AtMost (disk.dir peer).segments num

/-- There is a last file, and it is not full. -/
def HasRoom (segmentBytes : Nat) (files : List Bytes) : Prop :=
  ∃ older last, files = older ++ [last] ∧ last.length < segmentBytes

theorem hasRoom_append_singleton {segmentBytes : Nat} {older : List Bytes} {last : Bytes} :
    HasRoom segmentBytes (older ++ [last]) ↔ last.length < segmentBytes := by
  constructor
  · rintro ⟨older', last', heq, hlt⟩
    rw [(List.append_singleton_inj.mp heq).2]
    exact hlt
  · exact fun hlt => ⟨older, last, rfl, hlt⟩

/-- The number that is opened next is the greatest one there is, or one above all; it
is there already exactly when the last file has room. -/
theorem nextSegment_spec (w : FileWal) (dir : PeerDir) :
    HashMap.AtMost dir.segments (w.nextSegment dir) ∧
    (w.nextSegment dir ∈ dir.segments ↔ HasRoom w.segmentBytes dir.segments.inOrder) := by
  unfold nextSegment
  cases hmax : dir.segments.keys.max? with
  | none =>
    have hempty := HashMap.max?_keys_eq_none.mp hmax
    refine ⟨fun k hk => absurd hk (hempty k), fun hmem => absurd hmem (hempty 1), ?_⟩
    rw [HashMap.inOrder_of_empty hempty]
    rintro ⟨older, last, hnil, -⟩
    exact absurd hnil (by simp)
  | some latest =>
    obtain ⟨hmem, hle⟩ := HashMap.max?_keys_eq_some.mp hmax
    obtain ⟨last, hlast⟩ := Option.isSome_iff_exists.mp (AList.lookup_isSome.mpr hmem)
    dsimp only
    rw [HashMap.inOrder_of_last hle hlast, hasRoom_append_singleton, hlast, Option.getD_some]
    split
    next hfull =>
      refine ⟨fun k hk => Nat.le_succ_of_le (hle k hk), fun hin => ?_, fun _ => by omega⟩
      exact absurd (hle _ hin) (by omega)
    next hfull => exact ⟨hle, fun _ => by omega, fun _ => hmem⟩

/-- The file that `get_or_create_active_segment` picks: the last one as long as it
is not full, else a new one behind it. -/
theorem files_getOrCreate {w : FileWal} {disk : Disk} {peer : Peer} (h : w.Placed disk peer) :
    (w.getOrCreateActiveSegment disk peer).1.Placed
      (w.getOrCreateActiveSegment disk peer).2 peer ∧
    peer ∈ (w.getOrCreateActiveSegment disk peer).1.activeSegments ∧
    (peer ∈ w.activeSegments ∨ HasRoom w.segmentBytes (disk.files peer) →
      (w.getOrCreateActiveSegment disk peer).2.files peer = disk.files peer) ∧
    (peer ∉ w.activeSegments → ¬ HasRoom w.segmentBytes (disk.files peer) →
      (w.getOrCreateActiveSegment disk peer).2.files peer = disk.files peer ++ [[]]) := by
  unfold getOrCreateActiveSegment
  by_cases hopen : peer ∈ w.activeSegments
  · rw [if_pos hopen]
    exact ⟨h, hopen, fun _ => rfl, fun hn => absurd hopen hn⟩
  rw [if_neg hopen]
  dsimp only
  obtain ⟨hatMost, hroom⟩ := nextSegment_spec w (disk.dir peer)
  generalize w.nextSegment (disk.dir peer) = num at hatMost hroom ⊢
  refine ⟨⟨?_, ?_⟩, (AList.mem_insert _).mpr (.inl rfl), ?_, ?_⟩
  · intro hdir
    rw [Disk.dir_insert, if_pos rfl] at hdir
    exact absurd hdir (by simp)
  · intro active hactive
    rw [HashMap.lookup_insert_ite, if_pos rfl] at hactive
    obtain rfl := Option.some.inj hactive
    rw [Disk.dir_insert, if_pos rfl]
    dsimp only
    split
    next hin => exact ⟨hin, hatMost⟩
    next => exact ⟨(AList.mem_insert _).mpr (.inl rfl), HashMap.atMost_insert hatMost []⟩
  · rintro (hopen' | hlast)
    · exact absurd hopen' hopen
    · unfold Disk.files
      rw [Disk.dir_insert, if_pos rfl, if_pos (hroom.mpr hlast)]
  · intro _ hfull
    have hnin : num ∉ (disk.dir peer).segments := fun hin => hfull (hroom.mp hin)
    unfold Disk.files
    rw [Disk.dir_insert, if_pos rfl, if_neg hnin]
    exact (HashMap.inOrder_insert_last hatMost []).trans
      (congrArg (· ++ [[]]) (HashMap.erase_of_notMem hnin))

/-- Writing to the segment with the greatest number extends the last file. -/
theorem files_writeSegment {disk : Disk} {peer : Peer} {num : Nat}
    (hmem : num ∈ (disk.dir peer).segments) (hle : HashMap.AtMost (disk.dir peer).segments num)
    (buf : Bytes) :
    ∃ older last, disk.files peer = older ++ [last] ∧
      (writeSegment disk peer num buf).files peer = older ++ [last ++ buf] := by
  obtain ⟨last, hlast⟩ := Option.isSome_iff_exists.mp (AList.lookup_isSome.mpr hmem)
  refine ⟨_, last, HashMap.inOrder_of_last hle hlast, ?_⟩
  unfold writeSegment Disk.files
  rw [Disk.dir_insert, if_pos rfl]
  dsimp only
  rw [HashMap.inOrder_insert_last hle, hlast, Option.getD_some]

/-- A step that leaves the segments of a peer as they are. -/
structure SameFiles (w w' : FileWal) (disk disk' : Disk) (q : Peer) : Prop where
  active : w'.activeSegments.lookup q = w.activeSegments.lookup q
  walDir : (disk'.dir q).walDir = (disk.dir q).walDir
  segments : (disk'.dir q).segments = (disk.dir q).segments

theorem SameFiles.files {w w' : FileWal} {disk disk' : Disk} {q : Peer}
    (h : SameFiles w w' disk disk' q) : disk'.files q = disk.files q := by
  unfold Disk.files
  rw [h.segments]

theorem SameFiles.placed {w w' : FileWal} {disk disk' : Disk} {q : Peer}
    (h : SameFiles w w' disk disk' q) (hw : w.Placed disk q) : w'.Placed disk' q := by
  refine ⟨?_, ?_⟩
  · unfold InWalDir
    rw [h.walDir, h.segments]
    exact hw.walDir
  · rw [h.active, h.segments]
    exact hw.active

theorem SameFiles.trans {w w' w'' : FileWal} {disk disk' disk'' : Disk} {q : Peer}
    (h : SameFiles w w' disk disk' q) (h' : SameFiles w' w'' disk' disk'' q) :
    SameFiles w w'' disk disk'' q :=
  ⟨h'.active.trans h.active, h'.walDir.trans h.walDir, h'.segments.trans h.segments⟩

/-- Saving a state is not seen in the segments of any peer. -/
theorem sameFiles_setState (w : FileWal) (disk : Disk) (peer q : Peer) (state saved : PeerState) :
    SameFiles w (w.setState peer state) disk (disk.writeState peer saved) q := by
  have hdir : ((disk.writeState peer saved).dir q).walDir = (disk.dir q).walDir ∧
      ((disk.writeState peer saved).dir q).segments = (disk.dir q).segments := by
    unfold Disk.writeState
    rw [Disk.dir_insert]
    split
    next hq => exact hq ▸ ⟨rfl, rfl⟩
    next => exact ⟨rfl, rfl⟩
  exact ⟨rfl, hdir.1, hdir.2⟩

theorem sameFiles_truncateThrough (w : FileWal) (disk : Disk) (peer q : Peer) (upTo : Nat) :
    SameFiles w (w.truncateThrough disk peer upTo).1 disk
      (w.truncateThrough disk peer upTo).2 q := by
  unfold truncateThrough
  split
  · dsimp only
    split
    · exact sameFiles_setState ..
    · exact ⟨rfl, rfl, rfl⟩
  · exact ⟨rfl, rfl, rfl⟩

theorem sameFiles_storeAck (w : FileWal) (disk : Disk) (peer q : Peer) (ack : AckState) :
    SameFiles w (w.storeAck disk peer ack).1 disk (w.storeAck disk peer ack).2 q :=
  sameFiles_setState ..

/-- The wal and the disk after the record was written, before the state is saved. -/
def written (crates : Crates) (w : FileWal) (disk : Disk) (peer : Peer) (entry : WalEntry) :
    FileWal × Disk :=
  let (w, disk) := w.getOrCreateActiveSegment disk peer
  (w,
    match w.activeSegments.lookup peer with
    | some num => writeSegment disk peer num (encodeRecord crates entry)
    | none => disk)

/-- What `append` does after it has written the record is not seen in the segments. -/
theorem sameFiles_append (crates : Crates) (w : FileWal) (disk : Disk) (peer q : Peer)
    (entry : WalEntry) :
    SameFiles (w.written crates disk peer entry).1 (w.append crates disk peer entry).1
      (w.written crates disk peer entry).2 (w.append crates disk peer entry).2 q := by
  unfold append written
  dsimp only
  by_cases h100 : entry.msgId % 100 = 0
  · rw [if_pos h100]
    exact sameFiles_setState ..
  · rw [if_neg h100]
    exact ⟨rfl, rfl, rfl⟩

theorem sameFiles_append_other {q peer : Peer} (hq : q ≠ peer) (w : FileWal) (disk : Disk)
    (entry : WalEntry) :
    SameFiles w (w.append crates disk peer entry).1 disk (w.append crates disk peer entry).2 q := by
  have hopen : SameFiles w (w.getOrCreateActiveSegment disk peer).1 disk
      (w.getOrCreateActiveSegment disk peer).2 q := by
    unfold getOrCreateActiveSegment
    split
    · exact ⟨rfl, rfl, rfl⟩
    · refine ⟨AList.lookup_insert_ne hq, ?_, ?_⟩
      · rw [Disk.dir_insert, if_neg hq]
      · rw [Disk.dir_insert, if_neg hq]
  refine SameFiles.trans (hopen.trans ?_) (sameFiles_append crates w disk peer q entry)
  unfold written
  dsimp only
  split
  · refine ⟨rfl, ?_, ?_⟩
    · unfold writeSegment
      rw [Disk.dir_insert, if_neg hq]
    · unfold writeSegment
      rw [Disk.dir_insert, if_neg hq]
  · exact ⟨rfl, rfl, rfl⟩

/-- **`append`** writes the record at the end of the last file, a new one if the one
it found is full, and keeps the active segment last. -/
theorem files_append (crates : Crates) {w : FileWal} {disk : Disk} {peer : Peer}
    (h : w.Placed disk peer) (entry : WalEntry) :
    (w.append crates disk peer entry).1.Placed (w.append crates disk peer entry).2 peer ∧
    peer ∈ (w.append crates disk peer entry).1.activeSegments ∧
    ∃ older last,
      (w.getOrCreateActiveSegment disk peer).2.files peer = older ++ [last] ∧
      (w.append crates disk peer entry).2.files peer
        = older ++ [last ++ encodeRecord crates entry] := by
  obtain ⟨hplaced, hopen, -, -⟩ := files_getOrCreate h
  obtain ⟨num, hnum⟩ := Option.isSome_iff_exists.mp (AList.lookup_isSome.mpr hopen)
  obtain ⟨hmem, hle⟩ := hplaced.active num hnum
  obtain ⟨older, last, hfiles, hfiles'⟩ :=
    files_writeSegment hmem hle (encodeRecord crates entry)
  have hsame := sameFiles_append crates w disk peer peer entry
  have hwritten : w.written crates disk peer entry
      = ((w.getOrCreateActiveSegment disk peer).1,
        writeSegment (w.getOrCreateActiveSegment disk peer).2 peer num
          (encodeRecord crates entry)) := by
    unfold written
    dsimp only
    rw [hnum]
  rw [hwritten] at hsame
  refine ⟨hsame.placed ⟨fun hdir => ?_, fun active hactive => ?_⟩, ?_, older, last, hfiles, ?_⟩
  · unfold writeSegment at hdir
    rw [Disk.dir_insert, if_pos rfl] at hdir
    exact absurd hmem (hplaced.walDir hdir num)
  · obtain rfl : num = active := Option.some.inj (hnum.symm.trans hactive)
    unfold writeSegment
    rw [Disk.dir_insert, if_pos rfl]
    exact ⟨(AList.mem_insert _).mpr (.inl rfl), HashMap.atMost_insert hle _⟩
  · rw [← AList.lookup_isSome, hsame.active, AList.lookup_isSome]
    exact hopen
  · rw [hsame.files, hfiles']

end FileWal

end MeshCore.Storage
