import MeshCore.Storage.Agreement

/-!
# Torn writes

A crash cuts the last segment file of a peer off after any number of bytes. What
remains are the records that lie whole in the files, and behind them at most a
proper part of one more (`crash_files`). Reading stops at that part and returns
the records before it (`range_after_crash`), as long as every frame fits the
length field of its header.

Appending is another matter. The reopened log writes on behind the part that was
left, in the same file unless that is full, and the reader takes the leftover for
the beginning of the new records. `range_after_recovery_iff` says exactly when
the log still returns everything: the cut fell between two records, or the file
was full so that a new one was begun, or the leftover and the new bytes happen to
overlap.
-/

namespace MeshCore.Storage

open MeshCore.Lib MeshCore.Wire

variable {crates : Crates}

/-! ## The crash -/

/-- A crash leaves the first `cut` bytes of the last segment file of a peer. -/
def Disk.crash (disk : Disk) (peer : Peer) (cut : Nat) : Disk :=
  let dir := disk.dir peer
  match dir.segments.keys.max? with
  | some last =>
    let remaining := ((dir.segments.lookup last).getD []).take cut
    disk.insert peer { dir with segments := dir.segments.insert last remaining }
  | none => disk

/-- The records that lie whole in the files. -/
def wholeRecords (crates : Crates) (files : List Bytes) (entries : List WalEntry) :
    List WalEntry :=
  (recordFraming crates).wholeIn files.flatten.length entries

/-- The bytes of the files behind these records. -/
def leftover (crates : Crates) (files : List Bytes) (entries : List WalEntry) : Bytes :=
  files.flatten.drop (encodeAll crates (wholeRecords crates files entries)).length

theorem wholeRecords_sublist (crates : Crates) (files : List Bytes) (entries : List WalEntry) :
    (wholeRecords crates files entries).Sublist entries :=
  (recordFraming crates).wholeIn_sublist _ _

/-- An id a message can have. -/
def ValidId (msgId : Nat) : Prop := 1 ≤ msgId ∧ msgId < 2 ^ 64

/-- The files after the crash. -/
theorem Disk.files_crash (disk : Disk) (peer : Peer) (cut : Nat) :
    (disk.files peer = [] ∧ disk.crash peer cut = disk) ∨
    ∃ older last, disk.files peer = older ++ [last] ∧
      (disk.crash peer cut).files peer = older ++ [last.take cut] := by
  unfold crash
  dsimp only
  cases hmax : (disk.dir peer).segments.keys.max? with
  | none => exact .inl ⟨HashMap.inOrder_of_empty (HashMap.max?_keys_eq_none.mp hmax), rfl⟩
  | some num =>
    obtain ⟨hmem, hle⟩ := HashMap.max?_keys_eq_some.mp hmax
    obtain ⟨last, hlast⟩ := Option.isSome_iff_exists.mp (AList.lookup_isSome.mpr hmem)
    refine .inr ⟨_, last, HashMap.inOrder_of_last hle hlast, ?_⟩
    unfold files
    rw [Disk.dir_insert, if_pos rfl]
    dsimp only
    rw [HashMap.inOrder_insert_last hle, hlast, Option.getD_some]

/-- The crash keeps the directory. -/
theorem Disk.walDir_crash {disk : Disk} {peer : Peer} (h : InWalDir (disk.dir peer)) (cut : Nat) :
    InWalDir ((disk.crash peer cut).dir peer) := by
  unfold crash
  dsimp only
  cases hmax : (disk.dir peer).segments.keys.max? with
  | none => exact h
  | some last =>
    dsimp only
    rw [Disk.dir_insert, if_pos rfl]
    exact fun hdir => absurd (HashMap.max?_keys_eq_some.mp hmax).1 (h hdir last)

/-- **What a crash leaves**: the records that lie whole in the files, and behind
them, at the end of the last file, at most a proper part of one more. -/
theorem crash_files {s : FileStorage crates} {peer : Peer} {pieces : List (List WalEntry)}
    (h : Laid s peer pieces) (cut : Nat) :
    let files := (s.disk.crash peer cut).files peer
    (files = [] ∧ pieces = []) ∨
    ∃ (older : List (List WalEntry)) (last : List WalEntry),
      files = older.map (encodeAll crates)
        ++ [encodeAll crates last ++ leftover crates files pieces.flatten] ∧
      wholeRecords crates files pieces.flatten = older.flatten ++ last ∧
      (leftover crates files pieces.flatten = [] ∨ ∃ entry ∈ pieces.flatten, ∃ rest,
        encodeRecord crates entry = leftover crates files pieces.flatten ++ rest ∧ rest ≠ []) := by
  dsimp only
  rcases s.disk.files_crash peer cut with ⟨hnil, hsame⟩ | ⟨olderFiles, lastFile, hfiles, hcut⟩
  · rw [hsame]
    exact .inl ⟨hnil, List.map_eq_nil_iff.mp (h.files.symm.trans hnil)⟩
  · refine .inr ?_
    rw [h.files, List.map_eq_append_iff] at hfiles
    obtain ⟨older, back, rfl, holder, hback⟩ := hfiles
    obtain ⟨piece, rfl, hpiece⟩ := List.map_eq_singleton_iff.mp hback
    have hsplit : lastFile.take cut ++ lastFile.drop cut = (recordFraming crates).concat piece := by
      rw [List.take_append_drop, ← hpiece]
    obtain ⟨left, hleft, hpart⟩ := (recordFraming crates).split_whole hsplit
    have hflat : ((s.disk.crash peer cut).files peer).flatten
        = encodeAll crates older.flatten ++ lastFile.take cut := by
      rw [hcut, ← holder, List.flatten_append, List.flatten_singleton]
      exact congrArg (· ++ _) ((recordFraming crates).concat_flatten older)
    have hwhole :
        wholeRecords crates ((s.disk.crash peer cut).files peer) (older ++ [piece]).flatten
        = older.flatten ++ (recordFraming crates).wholeIn (lastFile.take cut).length piece := by
      unfold wholeRecords
      rw [hflat, List.flatten_append, List.flatten_singleton, List.length_append,
        (recordFraming crates).wholeIn_append _ _ _ (Nat.le_add_right ..), Nat.add_sub_cancel_left]
    generalize (recordFraming crates).wholeIn (lastFile.take cut).length piece = last
      at hleft hwhole
    have hover : leftover crates ((s.disk.crash peer cut).files peer) (older ++ [piece]).flatten
        = left := by
      unfold leftover
      rw [hwhole, encodeAll_append, hflat, List.length_append, ← List.drop_drop, List.drop_left]
      rw [hleft]
      exact List.drop_left
    refine ⟨older, last, ?_, hwhole, ?_⟩
    · rw [hover, hcut, holder]
      exact congrArg (fun file => olderFiles ++ [file]) hleft
    · rw [hover]
      refine hpart.imp id fun ⟨entry, hentry, hcutEntry⟩ => ⟨entry, ?_, hcutEntry⟩
      rw [List.flatten_append, List.flatten_singleton]
      exact List.mem_append_right _ hentry

/-! ## Reading after a crash -/

/-- What a crash leaves of a record that fits is no record. -/
theorem incomplete_leftover {left : Bytes} {entries : List WalEntry}
    (hfits : ∀ entry ∈ entries, entry.Fits)
    (h : left = [] ∨ ∃ entry ∈ entries, ∃ rest,
      encodeRecord crates entry = left ++ rest ∧ rest ≠ []) : Incomplete left := by
  rcases h with rfl | ⟨entry, hentry, rest, hcut, hrest⟩
  · exact incomplete_nil
  · exact incomplete_of_part (hfits entry hentry) hcut hrest

theorem filter_ids {entries : List WalEntry} (h : ∀ entry ∈ entries, 1 ≤ entry.msgId) :
    entries.filter (fun entry => entry.msgId > 0) = entries :=
  List.filter_eq_self.mpr fun entry hentry => decide_eq_true (h entry hentry)

/-- Reading the files of a peer after a crash. -/
theorem Laid.range_crash {s : FileStorage crates} {peer : Peer} {pieces : List (List WalEntry)}
    (h : Laid s peer pieces) (hfits : ∀ entry ∈ pieces.flatten, entry.Fits)
    (hids : ∀ entry ∈ pieces.flatten, 1 ≤ entry.msgId) (cut : Nat) :
    FileWal.range crates (s.disk.crash peer cut) peer 0 none
      = .ok (wholeRecords crates ((s.disk.crash peer cut).files peer) pieces.flatten) := by
  refine (FileWal.range_eq_ok_iff (Disk.walDir_crash h.placed.walDir cut)).mpr ?_
  have hsub := wholeRecords_sublist crates ((s.disk.crash peer cut).files peer)
    pieces.flatten
  have hcrash := crash_files h cut
  dsimp only at hcrash
  rw [← filter_ids fun entry hentry => hids entry (hsub.subset hentry)]
  generalize (s.disk.crash peer cut).files peer = files at *
  rcases hcrash with ⟨rfl, rfl⟩ | ⟨older, last, hfiles, hwhole, hpart⟩
  · exact ⟨[], .nil, rfl⟩
  · have hwholeFits : ∀ entry ∈ older.flatten ++ last, entry.Fits := by
      rw [← hwhole]
      exact fun entry hentry => hfits entry (hsub.subset hentry)
    have hlast :
        Reads crates (encodeAll crates last ++ leftover crates files pieces.flatten) last :=
      ⟨fun entry hentry => hwholeFits entry (List.mem_append_right _ hentry), _, rfl,
        incomplete_leftover hfits hpart⟩
    have hreads : List.Forall₂ (Reads crates) files (older ++ [last]) := by
      rw [hfiles]
      exact List.rel_append
        (reads_pieces fun entry hentry => hwholeFits entry (List.mem_append_left _ hentry))
        (.cons hlast .nil)
    refine ⟨older ++ [last], hreads, ?_⟩
    rw [List.flatten_append, List.flatten_singleton, ← hwhole]

/-- Without a cut every record is whole. -/
theorem Laid.wholeRecords_uncut {s : FileStorage crates} {peer : Peer}
    {pieces : List (List WalEntry)} (h : Laid s peer pieces) (cut : Nat)
    (hcut : (encodeAll crates pieces.flatten).length ≤ cut) :
    wholeRecords crates ((s.disk.crash peer cut).files peer) pieces.flatten = pieces.flatten := by
  have hflat : (s.disk.files peer).flatten = encodeAll crates pieces.flatten := by
    rw [h.files]
    exact (recordFraming crates).concat_flatten pieces
  have hsame : (s.disk.crash peer cut).files peer = s.disk.files peer := by
    rcases s.disk.files_crash peer cut with ⟨-, heq⟩ | ⟨older, last, hfiles, hfiles'⟩
    · rw [heq]
    · rw [← hflat, hfiles, List.flatten_append, List.flatten_singleton, List.length_append] at hcut
      rw [hfiles', hfiles, List.take_of_length_le (by omega)]
  have hwhole := (recordFraming crates).wholeIn_append _ pieces.flatten []
    (Nat.le_refl (encodeAll crates pieces.flatten).length)
  rw [List.append_nil] at hwhole
  unfold wholeRecords
  rw [hsame, hflat, hwhole]
  exact List.append_nil _

/-- **A torn tail loses the torn record only.** After a crash at any byte of the
last segment, `range` returns the records that lie whole in the files, in the
order in which they were appended. -/
theorem range_after_crash (crates : Crates) (segmentBytes windowSize : Nat) (ops : List WalOp)
    (hids : ∀ peer entry, .append peer entry ∈ ops → ValidId entry.msgId)
    (hlen : ∀ peer entry, .append peer entry ∈ ops → entry.bytes.length < 2 ^ 32)
    (peer : Peer) (cut : Nat) :
    let disk := ((FileStorage.start crates segmentBytes windowSize ∅).run ops).disk.crash peer cut
    FileWal.range crates disk peer 0 none
      = .ok (wholeRecords crates (disk.files peer) (appendedTo peer ops)) := by
  obtain ⟨pieces, hlaid, hflat⟩ := laid_run (laid_fresh crates segmentBytes windowSize peer) ops
  have hmem : ∀ entry ∈ pieces.flatten, .append peer entry ∈ ops := by
    intro entry hentry
    rw [hflat] at hentry
    exact mem_appendedTo.mp hentry
  have hread := hlaid.range_crash
    (fun entry hentry =>
      ⟨hlen peer entry (hmem entry hentry), (hids peer entry (hmem entry hentry)).2⟩)
    (fun entry hentry => (hids peer entry (hmem entry hentry)).1) cut
  rw [hflat] at hread
  exact hread

/-- Two records, and a cut one byte into the body of the second. -/
def twoRecords : List WalOp := [.append 1 ⟨1, [7]⟩, .append 1 ⟨2, [8, 8]⟩]

theorem range_after_crash_two :
    FileWal.range .standard
      (((FileStorage.start .standard 1000 4 ∅).run twoRecords).disk.crash 1 34) 1 0 none
      = .ok [⟨1, [7]⟩] := by
  have hbound : ∀ peer entry, .append peer entry ∈ twoRecords →
      ValidId entry.msgId ∧ entry.bytes.length < 2 ^ 32 := by
    intro peer entry h
    simp only [twoRecords, List.mem_cons, WalOp.append.injEq, List.not_mem_nil, or_false] at h
    rcases h with ⟨-, rfl⟩ | ⟨-, rfl⟩ <;> exact ⟨⟨by decide, by decide⟩, by decide⟩
  have hread := range_after_crash .standard 1000 4 twoRecords
    (fun peer entry h => (hbound peer entry h).1) (fun peer entry h => (hbound peer entry h).2) 1 34
  have hwhole : wholeRecords .standard
      ((((FileStorage.start .standard 1000 4 ∅).run twoRecords).disk.crash 1 34).files 1)
      (appendedTo 1 twoRecords) = [⟨1, [7]⟩] := by decide +kernel
  dsimp only at hread
  rw [hread, hwhole]

/-- A record too long for its header is never read back. -/
theorem range_after_crash_ne_of_long (crates : Crates) (segmentBytes windowSize : Nat)
    (peer : Peer) {entry : WalEntry} (hlong : 2 ^ 32 ≤ entry.bytes.length) {cut : Nat}
    (hcut : SegmentHeader.size + entry.bytes.length ≤ cut) :
    let ops := [.append peer entry]
    let disk := ((FileStorage.start crates segmentBytes windowSize ∅).run ops).disk.crash peer cut
    FileWal.range crates disk peer 0 none
      ≠ .ok (wholeRecords crates (disk.files peer) (appendedTo peer ops)) := by
  obtain ⟨pieces, hlaid, hflat⟩ :=
    laid_run (laid_fresh crates segmentBytes windowSize peer) [.append peer entry]
  rw [appendedTo_singleton, if_pos rfl, List.flatten_nil, List.nil_append] at hflat
  have hwhole := hlaid.wholeRecords_uncut cut (by
    rw [hflat, encodeAll_singleton, encodeRecord_length]
    exact hcut)
  dsimp only
  rw [appendedTo_singleton, if_pos rfl, ← hflat, hwhole, hflat]
  intro hread
  obtain ⟨read, hreads, hfound⟩ :=
    (FileWal.range_eq_ok_iff (Disk.walDir_crash hlaid.placed.walDir cut)).mp hread
  have hmem : entry ∈ read.flatten.filter fun e => e.msgId > 0 :=
    hfound ▸ List.mem_singleton_self entry
  exact absurd (fits_of_reads hreads entry (List.mem_filter.mp hmem).1).len (Nat.not_lt.mpr hlong)

theorem range_after_crash_four_gib :
    let ops := [.append 1 ⟨1, List.replicate (2 ^ 32) 0⟩]
    let disk := ((FileStorage.start .standard 1000 4 ∅).run ops).disk.crash 1 (2 ^ 33)
    FileWal.range .standard disk 1 0 none
      ≠ .ok (wholeRecords .standard (disk.files 1) (appendedTo 1 ops)) := by
  refine range_after_crash_ne_of_long .standard 1000 4 1 ?_ ?_
  · rw [List.length_replicate]
  · rw [List.length_replicate, SegmentHeader.size]
    omega

/-! ## Appending after a crash -/

/-- Appending through an open segment extends the last file. -/
theorem files_run_appends {s : FileStorage crates} {peer : Peer}
    (h : s.wal.Placed s.disk peer) (hopen : peer ∈ s.wal.activeSegments) {older : List Bytes}
    {last : Bytes} (hfiles : s.disk.files peer = older ++ [last]) (posts : List WalEntry) :
    (s.run (posts.map (.append peer))).wal.Placed (s.run (posts.map (.append peer))).disk peer ∧
    (s.run (posts.map (.append peer))).disk.files peer
      = older ++ [last ++ encodeAll crates posts] := by
  induction posts generalizing s last with
  | nil => exact ⟨h, by rw [show encodeAll crates [] = [] from rfl, List.append_nil]; exact hfiles⟩
  | cons post posts ih =>
    obtain ⟨hplaced, hstill, older', last', hopened, hwritten⟩ :=
      FileWal.files_append crates h post
    obtain ⟨-, -, hkept, -⟩ := FileWal.files_getOrCreate h
    rw [hkept (.inl hopen), hfiles] at hopened
    obtain ⟨rfl, rfl⟩ := List.append_singleton_inj.mp hopened
    rw [encodeAll_cons, ← List.append_assoc]
    exact ih hplaced hstill hwritten

/-- **Appending after opening a directory** extends the last file if there is one
with room, and begins a new one otherwise. -/
theorem files_start_appends (crates : Crates) {disk : Disk} {peer : Peer}
    (h : InWalDir (disk.dir peer))
    (segmentBytes windowSize : Nat) {posts : List WalEntry} (hne : posts ≠ []) :
    let s := (FileStorage.start crates segmentBytes windowSize disk).run (posts.map (.append peer))
    InWalDir (s.disk.dir peer) ∧
    ((FileWal.HasRoom segmentBytes (disk.files peer) ∧
        ∃ older last, disk.files peer = older ++ [last] ∧
          s.disk.files peer = older ++ [last ++ encodeAll crates posts]) ∨
      (¬ FileWal.HasRoom segmentBytes (disk.files peer) ∧
        s.disk.files peer = disk.files peer ++ [encodeAll crates posts])) := by
  obtain ⟨post, posts, rfl⟩ := List.exists_cons_of_ne_nil hne
  have hnew := placed_start h segmentBytes
  have hclosed : peer ∉ (FileWal.new segmentBytes disk).activeSegments := AList.notMem_empty peer
  obtain ⟨hplaced, hopen, older, last, hopened, hwritten⟩ :=
    FileWal.files_append crates hnew post
  obtain ⟨-, -, hkept, hfresh⟩ := FileWal.files_getOrCreate hnew
  obtain ⟨hplaced', hfiles'⟩ := files_run_appends
    (s := Wal.append (FileStorage.start crates segmentBytes windowSize disk) peer post)
    hplaced hopen hwritten posts
  rw [List.append_assoc, ← encodeAll_cons] at hfiles'
  refine ⟨hplaced'.walDir, ?_⟩
  by_cases hroom : FileWal.HasRoom segmentBytes (disk.files peer)
  · rw [hkept (.inr hroom)] at hopened
    exact .inl ⟨hroom, older, last, hopened, hfiles'⟩
  · rw [hfresh hclosed hroom] at hopened
    obtain ⟨rfl, rfl⟩ := List.append_singleton_inj.mp hopened
    exact .inr ⟨hroom, hfiles'⟩

/-- A torn record that still has its whole header shows its id there. -/
theorem decode_msgId_of_part {entry : WalEntry} (hid : entry.msgId < 2 ^ 64) {left rest : Bytes}
    (hcut : encodeRecord crates entry = left ++ rest) (hsize : SegmentHeader.size ≤ left.length) :
    (SegmentHeader.decode left).msgId = entry.msgId := by
  have hsize' : SegmentHeader.size = 16 := rfl
  have hfield : (left.drop 4).take 8 = putLE 8 entry.msgId := by
    have hdrop : (left.drop 4).take 8 = ((left ++ rest).drop 4).take 8 := by
      rw [List.drop_append_of_le_length (by omega),
        List.take_append_of_le_length (by rw [List.length_drop]; omega)]
    rw [hdrop, ← hcut, encodeRecord, SegmentHeader.encode, List.append_assoc, List.append_assoc,
      List.drop_left' (putLE_length ..), List.take_left' (putLE_length ..)]
  unfold SegmentHeader.decode
  dsimp only
  rw [hfield, getLE_putLE]
  exact Nat.mod_eq_of_lt hid

/-- A leftover that adds nothing to what is read is no whole record. -/
theorem incomplete_of_silent {left : Bytes} {entries found : List WalEntry}
    (hids : ∀ entry ∈ entries, ValidId entry.msgId)
    (h : left = [] ∨ ∃ entry ∈ entries, ∃ rest,
      encodeRecord crates entry = left ++ rest ∧ rest ≠ [])
    (hreads : Reads crates left found) (hnone : found.filter (fun e => e.msgId > 0) = []) :
    Incomplete left := by
  rcases h with rfl | ⟨entry, hentry, rest, hcut, -⟩
  · exact incomplete_nil
  · cases found with
    | nil => exact reads_nil_iff.mp hreads
    | cons first later =>
      -- what was read first has the id in the torn header, which is not zero
      obtain ⟨hfits, tail, hleft, -⟩ := hreads
      rw [encodeAll_cons, List.append_assoc] at hleft
      have hsize : SegmentHeader.size ≤ left.length := by
        rw [hleft, List.length_append, encodeRecord_length]
        omega
      have hid := decode_msgId_of_part (hids entry hentry).2 hcut hsize
      rw [hleft, encodeRecord_eq, List.append_assoc,
        decode_headerOf (hfits first (List.mem_cons_self ..))] at hid
      have hfirst : first.msgId > 0 := by
        rw [show first.msgId = entry.msgId from hid]
        exact (hids entry hentry).1
      rw [List.filter_cons_of_pos (by simpa using hfirst)] at hnone
      exact absurd hnone (List.cons_ne_nil _ _)

/-- The leftover and the new records overlap: what they are together is the new
records, and a rest that is no whole record. Records with the id 0 are skipped by
a reader that starts from 0. -/
def Overlaps (crates : Crates) (left : Bytes) (posts : List WalEntry) : Prop :=
  ∃ found, Reads crates (left ++ encodeAll crates posts) found ∧
    found.filter (fun entry => entry.msgId > 0) = posts

/-- The records appended after the crash can be read: nothing was left of a torn
record, or they are in a file of their own, or they overlap with what was left. -/
def Readable (crates : Crates) (segmentBytes : Nat) (files : List Bytes) (left : Bytes)
    (posts : List WalEntry) : Prop :=
  left = [] ∨ (¬ FileWal.HasRoom segmentBytes files ∧ Incomplete left) ∨
    (FileWal.HasRoom segmentBytes files ∧ Overlaps crates left posts)

/-- Appending to the torn file. -/
theorem reads_torn_iff {older : List (List WalEntry)} {last posts : List WalEntry} {left : Bytes}
    (hfits : ∀ entry ∈ older.flatten ++ last, entry.Fits)
    (hids : ∀ entry ∈ older.flatten ++ last, 1 ≤ entry.msgId) :
    (∃ pieces, List.Forall₂ (Reads crates) (older.map (encodeAll crates)
        ++ [encodeAll crates last ++ (left ++ encodeAll crates posts)]) pieces ∧
      older.flatten ++ last ++ posts = pieces.flatten.filter fun entry => entry.msgId > 0) ↔
    Overlaps crates left posts := by
  have holder : ∀ entry ∈ older.flatten, entry.Fits := fun entry hentry =>
    hfits entry (List.mem_append_left _ hentry)
  have hlast : ∀ entry ∈ last, entry.Fits := fun entry hentry =>
    hfits entry (List.mem_append_right _ hentry)
  have hread : ∀ found, (older ++ [last ++ found]).flatten.filter (fun entry => entry.msgId > 0)
      = older.flatten ++ last ++ found.filter fun entry => entry.msgId > 0 := by
    intro found
    rw [List.flatten_append, List.flatten_singleton, ← List.append_assoc, List.filter_append,
      filter_ids hids]
  constructor
  · rintro ⟨pieces, hpieces, hfound⟩
    obtain ⟨later, rfl, hlater⟩ := (reads_pieces_append_iff holder).mp hpieces
    cases hlater with
    | cons hfile hrest =>
      cases hrest
      obtain ⟨found, rfl, hreads⟩ := (reads_append_iff hlast).mp hfile
      rw [hread] at hfound
      exact ⟨found, hreads, (List.append_cancel_left hfound).symm⟩
  · rintro ⟨found, hreads, hposts⟩
    refine ⟨older ++ [last ++ found], ?_, by rw [hread, hposts]⟩
    exact (reads_pieces_append_iff holder).mpr
      ⟨_, rfl, .cons ((reads_append_iff hlast).mpr ⟨found, rfl, hreads⟩) .nil⟩

/-- Appending to a file behind the torn one. -/
theorem reads_behind_torn_iff {older : List (List WalEntry)} {last posts entries : List WalEntry}
    {left : Bytes} (hfits : ∀ entry ∈ older.flatten ++ last ++ posts, entry.Fits)
    (hids : ∀ entry ∈ older.flatten ++ last ++ posts, 1 ≤ entry.msgId)
    (hentries : ∀ entry ∈ entries, ValidId entry.msgId)
    (hpart : left = [] ∨ ∃ entry ∈ entries, ∃ rest,
      encodeRecord crates entry = left ++ rest ∧ rest ≠ []) :
    (∃ pieces, List.Forall₂ (Reads crates) (older.map (encodeAll crates)
        ++ [encodeAll crates last ++ left, encodeAll crates posts]) pieces ∧
      older.flatten ++ last ++ posts = pieces.flatten.filter fun entry => entry.msgId > 0) ↔
    Incomplete left := by
  have holder : ∀ entry ∈ older.flatten, entry.Fits := fun entry hentry =>
    hfits entry (List.mem_append_left _ (List.mem_append_left _ hentry))
  have hlast : ∀ entry ∈ last, entry.Fits := fun entry hentry =>
    hfits entry (List.mem_append_left _ (List.mem_append_right _ hentry))
  have hposts : ∀ entry ∈ posts, entry.Fits := fun entry hentry =>
    hfits entry (List.mem_append_right _ hentry)
  have hread : ∀ found,
      (older ++ [last ++ found, posts]).flatten.filter (fun entry => entry.msgId > 0)
        = older.flatten ++ last ++ ((found.filter fun entry => entry.msgId > 0) ++ posts) := by
    intro found
    rw [List.flatten_append, List.flatten_cons, List.flatten_singleton, ← List.append_assoc,
      ← List.append_assoc, List.filter_append, List.filter_append,
      filter_ids fun entry hentry => hids entry (List.mem_append_left _ hentry),
      filter_ids fun entry hentry => hids entry (List.mem_append_right _ hentry), List.append_assoc]
  constructor
  · rintro ⟨pieces, hpieces, hfound⟩
    obtain ⟨later, rfl, hlater⟩ := (reads_pieces_append_iff holder).mp hpieces
    cases hlater with
    | cons hfile hrest =>
      cases hrest with
      | cons hnew hnil =>
        cases hnil
        obtain ⟨found, rfl, hreads⟩ := (reads_append_iff hlast).mp hfile
        rw [(reads_encodeAll hposts).unique hnew, hread] at hfound
        have hnone := List.self_eq_append_left.mp (List.append_cancel_left hfound)
        exact incomplete_of_silent hentries hpart hreads hnone
  · intro hleft
    refine ⟨older ++ [last ++ [], posts], ?_, by rw [hread]; rfl⟩
    refine (reads_pieces_append_iff holder).mpr
      ⟨_, rfl, .cons ?_ (.cons (reads_encodeAll hposts) .nil)⟩
    exact (reads_append_iff hlast).mpr ⟨[], rfl, reads_nil_iff.mpr hleft⟩

/-- Behind a file with room the records can be read if they overlap with the leftover. -/
theorem readable_iff_overlaps {segmentBytes : Nat} {files : List Bytes} {left : Bytes}
    {posts : List WalEntry} (hroom : FileWal.HasRoom segmentBytes files)
    (hfits : ∀ entry ∈ posts, entry.Fits) (hids : ∀ entry ∈ posts, 1 ≤ entry.msgId) :
    Readable crates segmentBytes files left posts ↔ Overlaps crates left posts := by
  constructor
  · rintro (rfl | ⟨hnoroom, -⟩ | ⟨-, hover⟩)
    · exact ⟨posts, reads_encodeAll hfits, filter_ids hids⟩
    · exact absurd hroom hnoroom
    · exact hover
  · exact fun hover => .inr (.inr ⟨hroom, hover⟩)

/-- Behind a full file they can be read if the leftover is no whole record. -/
theorem readable_iff_incomplete {segmentBytes : Nat} {files : List Bytes} {left : Bytes}
    {posts : List WalEntry} (hnoroom : ¬ FileWal.HasRoom segmentBytes files) :
    Readable crates segmentBytes files left posts ↔ Incomplete left := by
  constructor
  · rintro (rfl | ⟨-, hleft⟩ | ⟨hroom, -⟩)
    · exact incomplete_nil
    · exact hleft
    · exact absurd hroom hnoroom
  · exact fun hleft => .inr (.inl ⟨hnoroom, hleft⟩)

/-- Appending where no file was. -/
theorem reads_first_file {posts : List WalEntry} (hfits : ∀ entry ∈ posts, entry.Fits)
    (hids : ∀ entry ∈ posts, 1 ≤ entry.msgId) :
    ∃ pieces, List.Forall₂ (Reads crates) [encodeAll crates posts] pieces ∧
      posts = pieces.flatten.filter fun entry => entry.msgId > 0 := by
  refine ⟨[posts], .cons (reads_encodeAll hfits) .nil, ?_⟩
  rw [List.flatten_singleton]
  exact (filter_ids hids).symm

/-- The log of a peer with these files, after a crash and some more appends. -/
theorem Laid.range_recovery_iff {s : FileStorage crates} {peer : Peer}
    {pieces : List (List WalEntry)} (h : Laid s peer pieces)
    (hids : ∀ entry ∈ pieces.flatten, ValidId entry.msgId) (cut segmentBytes windowSize : Nat)
    {posts : List WalEntry} (hne : posts ≠ []) (hposts : ∀ entry ∈ posts, ValidId entry.msgId) :
    let disk := s.disk.crash peer cut
    let whole := wholeRecords crates (disk.files peer) pieces.flatten
    Wal.range ((FileStorage.start crates segmentBytes windowSize disk).run
        (posts.map (.append peer))) peer 0 none = .ok (whole ++ posts) ↔
      (∀ entry ∈ whole ++ posts, entry.bytes.length < 2 ^ 32) ∧
      Readable crates segmentBytes (disk.files peer)
        (leftover crates (disk.files peer) pieces.flatten) posts := by
  obtain ⟨hdir, hfiles⟩ := files_start_appends crates
    (Disk.walDir_crash h.placed.walDir cut) segmentBytes windowSize hne
  have hcrash := crash_files h cut
  have hsub := wholeRecords_sublist crates ((s.disk.crash peer cut).files peer)
    pieces.flatten
  dsimp only at hcrash hfiles ⊢
  refine (FileWal.range_eq_ok_iff hdir).trans ?_
  generalize (s.disk.crash peer cut).files peer = files at *
  generalize Disk.files _ peer = after at *
  generalize hleft : leftover crates files pieces.flatten = left at *
  generalize hwhole : wholeRecords crates files pieces.flatten = whole at *
  have hvalid : ∀ entry ∈ whole ++ posts, ValidId entry.msgId := fun entry hentry =>
    (List.mem_append.mp hentry).elim (fun hin => hids entry (hsub.subset hin)) (hposts entry)
  have hpos : ∀ entry ∈ whole ++ posts, 1 ≤ entry.msgId := fun entry hentry =>
    (hvalid entry hentry).1
  -- with frames that fit, what is read depends on the leftover alone
  have hiff : (∀ entry ∈ whole ++ posts, entry.Fits) →
      ((∃ read, List.Forall₂ (Reads crates) after read ∧
          whole ++ posts = read.flatten.filter fun entry => entry.msgId > 0) ↔
        Readable crates segmentBytes files left posts) := by
    intro hfits
    rcases hcrash with ⟨rfl, rfl⟩ | ⟨older, last, hfiles', rfl, hpart⟩
    · -- no file was there to cut
      have hnoroom : ¬ FileWal.HasRoom segmentBytes [] := by
        rintro ⟨older, last, hnil, -⟩
        exact absurd hnil (by simp)
      obtain rfl : whole = [] := hwhole.symm
      rcases hfiles with ⟨hroom, -⟩ | ⟨-, rfl⟩
      · exact absurd hroom hnoroom
      · exact ⟨fun _ => .inl hleft.symm, fun _ => reads_first_file hfits hpos⟩
    · rcases hfiles with ⟨hroom, olderFiles, lastFile, hsplit, hafter⟩ | ⟨hnoroom, hafter⟩
      · rw [hfiles'] at hsplit
        obtain ⟨rfl, rfl⟩ := List.append_singleton_inj.mp hsplit
        rw [hafter, List.append_assoc, readable_iff_overlaps hroom
          (fun entry hentry => hfits entry (List.mem_append_right _ hentry))
          (fun entry hentry => hpos entry (List.mem_append_right _ hentry))]
        exact reads_torn_iff (fun entry hentry => hfits entry (List.mem_append_left _ hentry))
          (fun entry hentry => hpos entry (List.mem_append_left _ hentry))
      · rw [readable_iff_incomplete hnoroom, hafter, hfiles', List.append_assoc,
          List.singleton_append]
        exact reads_behind_torn_iff hfits hpos hids hpart
  constructor
  · intro hread
    have hfits : ∀ entry ∈ whole ++ posts, entry.Fits := by
      obtain ⟨read, hreads, hfound⟩ := hread
      intro entry hentry
      rw [hfound] at hentry
      exact fits_of_reads hreads entry (List.mem_filter.mp hentry).1
    exact ⟨fun entry hentry => (hfits entry hentry).len, (hiff hfits).mp hread⟩
  · rintro ⟨hlen, hreadable⟩
    exact (hiff fun entry hentry => ⟨hlen entry hentry, (hvalid entry hentry).2⟩).mpr hreadable

/-- **When the log stays usable after a torn write.** After any history, a crash at
any byte of the last segment, and some appends through a log reopened on the
directory, everything whole before the crash and everything appended after it is
returned exactly when the frames fit their headers and the records after the crash
can be read. -/
theorem range_after_recovery_iff (crates : Crates) (segmentBytes windowSize : Nat)
    (ops : List WalOp) (hids : ∀ peer entry, .append peer entry ∈ ops → ValidId entry.msgId)
    (peer : Peer) (cut reopenedBytes : Nat) (posts : List WalEntry) (hne : posts ≠ [])
    (hposts : ∀ entry ∈ posts, ValidId entry.msgId) :
    let disk := ((FileStorage.start crates segmentBytes windowSize ∅).run ops).disk.crash peer cut
    let whole := wholeRecords crates (disk.files peer) (appendedTo peer ops)
    Wal.range ((FileStorage.start crates reopenedBytes windowSize disk).run
        (posts.map (.append peer))) peer 0 none = .ok (whole ++ posts) ↔
      (∀ entry ∈ whole ++ posts, entry.bytes.length < 2 ^ 32) ∧
      Readable crates reopenedBytes (disk.files peer)
        (leftover crates (disk.files peer) (appendedTo peer ops)) posts := by
  obtain ⟨pieces, hlaid, hflat⟩ := laid_run (laid_fresh crates segmentBytes windowSize peer) ops
  rw [List.flatten_nil, List.nil_append] at hflat
  have hiff := hlaid.range_recovery_iff
    (fun entry hentry => hids peer entry (mem_appendedTo.mp (hflat ▸ hentry))) cut reopenedBytes
    windowSize hne hposts
  rw [hflat] at hiff
  exact hiff

/-- The cut falls between the two records, and a third one is appended. -/
theorem range_after_recovery_iff_boundary :
    Wal.range ((FileStorage.start .standard 1000 4
        (((FileStorage.start .standard 1000 4 ∅).run twoRecords).disk.crash 1 17)).run
        [.append 1 ⟨3, [9]⟩]) 1 0 none = .ok [⟨1, [7]⟩, ⟨3, [9]⟩] := by
  have hids : ∀ peer entry, .append peer entry ∈ twoRecords → ValidId entry.msgId := by
    intro peer entry h
    simp only [twoRecords, List.mem_cons, WalOp.append.injEq, List.not_mem_nil, or_false] at h
    rcases h with ⟨-, rfl⟩ | ⟨-, rfl⟩ <;> exact ⟨by decide, by decide⟩
  have hposts : ∀ entry ∈ [(⟨3, [9]⟩ : WalEntry)], ValidId entry.msgId := by
    intro entry h
    rw [List.mem_singleton.mp h]
    exact ⟨by decide, by decide⟩
  have hiff := range_after_recovery_iff .standard 1000 4 twoRecords hids 1 17 1000 [⟨3, [9]⟩]
    (List.cons_ne_nil _ _) hposts
  have hwhole : wholeRecords .standard
      ((((FileStorage.start .standard 1000 4 ∅).run twoRecords).disk.crash 1 17).files 1)
      (appendedTo 1 twoRecords) = [⟨1, [7]⟩] := by decide +kernel
  dsimp only at hiff
  rw [hwhole] at hiff
  refine hiff.mpr ⟨?_, .inl (by decide +kernel)⟩
  intro entry hentry
  simp only [List.cons_append, List.nil_append, List.mem_cons, List.not_mem_nil, or_false] at hentry
  rcases hentry with rfl | rfl <;> decide

/-- The cut leaves five bytes of a header. They become the beginning of the record
that is appended next, and the checksum of that is wrong. -/
theorem range_after_recovery_torn_header :
    let disk := ((FileStorage.start .standard 1000 4 ∅).run [.append 1 ⟨1, [7]⟩]).disk.crash 1 5
    wholeRecords .standard (disk.files 1) [⟨1, [7]⟩] = [] ∧
    Wal.range ((FileStorage.start .standard 1000 4 disk).run [.append 1 ⟨2, [8]⟩]) 1 0 none
      ≠ .ok ([] ++ [⟨2, [8]⟩]) := by
  decide +kernel

end MeshCore.Storage
