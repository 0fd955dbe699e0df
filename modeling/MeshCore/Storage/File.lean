import MeshCore.Storage.Memory
import MeshCore.Wire.Codec
import Mathlib.Data.List.Sort

/-!
# The file backend (`mesh-storage/src/backend/file.rs`)

Every peer has a directory with numbered segment files, to which records are
appended, and a file `state.json` with three counters. `FileWal` and `FileDedup`
both write `state.json`: `FileWal` writes the whole record from its own cache,
`FileDedup` reads the file, sets `cum_processed`, and writes it back.

The model keeps the disk apart from the two caches, so that a process can stop
and open the same directory again (`FileStorage.start`). The last section says
for every operation what it does to the counters in memory and on disk; nothing
after this file unfolds the operations again.

Mirroring notes:
- `state.json` is modelled by the record it holds; `serde_json` reads back what
  it wrote.
- A segment file is named by its number, and the active one is known by that
  number. There are no other files in the directories.
- I/O errors are left out, and so is the counter that spaces out `fsync`.
-/

namespace MeshCore.Storage

open MeshCore.Lib MeshCore.Wire

/-! ## The disk -/

/-- `PeerState`: the content of `state.json`. -/
structure PeerState where
  lastAppended : Nat := 0
  cumAcked : Nat := 0
  cumProcessed : Nat := 0
  deriving Repr, DecidableEq

/-- The directory of a peer: whether its `wal` directory exists, the segments in
it, and `state.json`. -/
structure PeerDir where
  walDir : Bool := false
  segments : HashMap Nat Bytes := ∅
  stateJson : Option PeerState := none

/-- The `peers` directory. -/
abbrev Disk := HashMap Peer PeerDir

/-- The directory of a peer, empty if there is none. -/
def Disk.dir (disk : Disk) (peer : Peer) : PeerDir := (disk.lookup peer).getD {}

/-- The counters on disk, zero without a file. -/
def Disk.saved (disk : Disk) (peer : Peer) : PeerState := (disk.dir peer).stateJson.getD {}

/-- Write `state.json`. -/
def Disk.writeState (disk : Disk) (peer : Peer) (state : PeerState) : Disk :=
  disk.insert peer { disk.dir peer with stateJson := some state }

/-! ## Records -/

/-- `SegmentHeader`. -/
structure SegmentHeader where
  len : Nat
  msgId : Nat
  crc32c : UInt32
  deriving Repr, DecidableEq

namespace SegmentHeader

/-- `SegmentHeader::SIZE`. -/
def size : Nat := 4 + 8 + 4

/-- `SegmentHeader::encode`; `len` is cut to 32 bits. -/
def encode (h : SegmentHeader) : Bytes :=
  putLE 4 h.len ++ putLE 8 h.msgId ++ putLE 4 h.crc32c.toNat

/-- `SegmentHeader::decode` of a buffer that is long enough. -/
def decode (buf : Bytes) : SegmentHeader :=
  { len := getLE (buf.take 4)
    msgId := getLE ((buf.drop 4).take 8)
    crc32c := UInt32.ofNat (getLE ((buf.drop 12).take 4)) }

/-- `SegmentHeader::compute_crc`. -/
def computeCrc (crates : Crates) (msgId : Nat) (frameBytes : Bytes) : UInt32 :=
  crates.crc32 (putLE 8 msgId ++ frameBytes)

/-- **The header of a record reads back**, if its fields fit their widths. -/
theorem decode_encode {h : SegmentHeader} (hlen : h.len < 256 ^ 4) (hid : h.msgId < 256 ^ 8)
    (rest : Bytes) : decode (h.encode ++ rest) = h := by
  have h₁ : (h.encode ++ rest).take 4 = putLE 4 h.len := by
    simp only [encode, List.append_assoc]
    exact List.take_left' (putLE_length ..)
  have h₂ : ((h.encode ++ rest).drop 4).take 8 = putLE 8 h.msgId := by
    simp only [encode, List.append_assoc]
    rw [List.drop_left' (putLE_length ..), List.take_left' (putLE_length ..)]
  have h₃ : ((h.encode ++ rest).drop 12).take 4 = putLE 4 h.crc32c.toNat := by
    have hfront : (putLE 4 h.len ++ putLE 8 h.msgId).length = 12 := by
      rw [List.length_append, putLE_length, putLE_length]
    simp only [encode]
    rw [List.append_assoc, List.drop_left' hfront, List.take_left' (putLE_length ..)]
  unfold decode
  rw [h₁, h₂, h₃, getLE_putLE, getLE_putLE, getLE_putLE, Nat.mod_eq_of_lt hlen,
    Nat.mod_eq_of_lt hid, Nat.mod_eq_of_lt (show h.crc32c.toNat < 256 ^ 4 from h.crc32c.toNat_lt),
    UInt32.ofNat_toNat]

end SegmentHeader

/-- A record as `append` writes it. -/
def encodeRecord (crates : Crates) (entry : WalEntry) : Bytes :=
  SegmentHeader.encode
    { len := entry.bytes.length, msgId := entry.msgId
      crc32c := SegmentHeader.computeCrc crates entry.msgId entry.bytes } ++ entry.bytes

/-! ## `FileWal` -/

/-- `FileWal`, with the segment size of its configuration. -/
structure FileWal where
  segmentBytes : Nat
  peerStates : HashMap Peer PeerState
  activeSegments : HashMap Peer Nat

namespace FileWal

/-- `FileWal::load_peer_states`. -/
def loadPeerStates (disk : Disk) : HashMap Peer PeerState :=
  disk.entries.foldl
    (fun states e =>
      if e.2.stateJson.isSome then states.insert e.1 (e.2.stateJson.getD {}) else states)
    ∅

/-- `FileWal::new`. -/
def new (segmentBytes : Nat) (disk : Disk) : FileWal :=
  { segmentBytes, peerStates := loadPeerStates disk, activeSegments := ∅ }

/-- The cached state of a peer, or the default one. -/
def state (w : FileWal) (peer : Peer) : PeerState := (w.peerStates.lookup peer).getD {}

/-- Keep a state in the cache. -/
def setState (w : FileWal) (peer : Peer) (state : PeerState) : FileWal :=
  { w with peerStates := w.peerStates.insert peer state }

/-- The segment to append to: the latest one, the one after it when that is full,
or the first. -/
def nextSegment (w : FileWal) (dir : PeerDir) : Nat :=
  match dir.segments.keys.max? with
  | some latest =>
    if ((dir.segments.lookup latest).getD []).length ≥ w.segmentBytes then latest + 1 else latest
  | none => 1

/-- `FileWal::get_or_create_active_segment`. -/
def getOrCreateActiveSegment (w : FileWal) (disk : Disk) (peer : Peer) : FileWal × Disk :=
  -- a segment once open is used until the process ends, however long it gets
  if peer ∈ w.activeSegments then (w, disk)
  else
    let dir := disk.dir peer
    let num := w.nextSegment dir
    let segments := if num ∈ dir.segments then dir.segments else dir.segments.insert num []
    ({ w with activeSegments := w.activeSegments.insert peer num },
      disk.insert peer { dir with walDir := true, segments })

/-- Append bytes to a segment file. -/
def writeSegment (disk : Disk) (peer : Peer) (num : Nat) (buf : Bytes) : Disk :=
  let dir := disk.dir peer
  disk.insert peer
    { dir with segments := dir.segments.insert num ((dir.segments.lookup num).getD [] ++ buf) }

/-- `FileWal::append`. -/
def append (crates : Crates) (w : FileWal) (disk : Disk) (peer : Peer) (entry : WalEntry) :
    FileWal × Disk :=
  let (w, disk) := w.getOrCreateActiveSegment disk peer
  let disk :=
    match w.activeSegments.lookup peer with
    | some num => writeSegment disk peer num (encodeRecord crates entry)
    | none => disk
  let state := { w.state peer with lastAppended := entry.msgId }
  -- `state.json` is written for every hundredth id only
  (w.setState peer state, if entry.msgId % 100 = 0 then disk.writeState peer state else disk)

/-- The records of a segment; whether the limit was reached. An incomplete record
ends the segment. -/
def readSegment (crates : Crates) (fromExclusive : Nat) (limit : Option Nat) :
    Nat → Bytes → List WalEntry → Except StorageError (List WalEntry × Bool)
  | 0, _, results => .ok (results, false)
  | fuel + 1, bytes, results =>
    if bytes.length < SegmentHeader.size then .ok (results, false)
    else
      let header := SegmentHeader.decode bytes
      let bytes := bytes.drop SegmentHeader.size
      if bytes.length < header.len then .ok (results, false)
      else
        let frameBytes := bytes.take header.len
        if header.crc32c ≠ SegmentHeader.computeCrc crates header.msgId frameBytes then
          .error (.corruption ("CRC mismatch for msg_id " ++ toString header.msgId))
        else if header.msgId > fromExclusive then
          let results := results ++ [{ msgId := header.msgId, bytes := frameBytes }]
          if limit.any (fun limit => results.length ≥ limit) then .ok (results, true)
          else readSegment crates fromExclusive limit fuel (bytes.drop header.len) results
        else readSegment crates fromExclusive limit fuel (bytes.drop header.len) results

/-- The segments one after the other. -/
def readSegments (crates : Crates) (dir : PeerDir) (fromExclusive : Nat) (limit : Option Nat) :
    List Nat → List WalEntry → Except StorageError (List WalEntry)
  | [], results => .ok results
  | num :: nums, results =>
    let bytes := (dir.segments.lookup num).getD []
    match readSegment crates fromExclusive limit bytes.length bytes results with
    | .error e => .error e
    | .ok (results, true) => .ok results
    | .ok (results, false) => readSegments crates dir fromExclusive limit nums results

/-- `FileWal::range`. -/
def range (crates : Crates) (disk : Disk) (peer : Peer) (fromExclusive : Nat) (limit : Option Nat) :
    Except StorageError (List WalEntry) :=
  let dir := disk.dir peer
  if dir.walDir then
    readSegments crates dir fromExclusive limit (dir.segments.keys.insertionSort (· ≤ ·)) []
  else .ok []

/-- `FileWal::truncate_through`: the segments stay. -/
def truncateThrough (w : FileWal) (disk : Disk) (peer : Peer) (upToInclusive : Nat) :
    FileWal × Disk :=
  if (disk.dir peer).walDir then
    let state := w.state peer
    if upToInclusive > state.cumAcked then
      let state := { state with cumAcked := upToInclusive }
      (w.setState peer state, disk.writeState peer state)
    else
      -- `or_insert_with` has put a default state into the cache
      (w.setState peer state, disk)
  else (w, disk)

/-- `FileWal::store_ack`. -/
def storeAck (w : FileWal) (disk : Disk) (peer : Peer) (ack : AckState) : FileWal × Disk :=
  let state := { w.state peer with cumAcked := ack.cumAcked }
  (w.setState peer state, disk.writeState peer state)

end FileWal

/-! ## `FileDedup` -/

/-- `FileDedup`. -/
structure FileDedup where
  tables : DedupTables

namespace FileDedup

/-- `FileDedup::load_states`. -/
def loadStates (disk : Disk) : HashMap Peer Nat :=
  disk.entries.foldl
    (fun cums e =>
      if e.2.stateJson.isSome then cums.insert e.1 (e.2.stateJson.getD {}).cumProcessed else cums)
    ∅

/-- `FileDedup::new`. -/
def new (windowSize : Nat) (disk : Disk) : FileDedup :=
  ⟨{ DedupTables.new windowSize with cumProcessed := loadStates disk }⟩

/-- `FileDedup::save_peer_state`: read, change one field, write. -/
def savePeerState (disk : Disk) (peer : Peer) (cumProcessed : Nat) : Disk :=
  disk.writeState peer { disk.saved peer with cumProcessed }

/-- `FileDedup::mark_processed`. -/
def markProcessed (d : FileDedup) (disk : Disk) (peer : Peer) (msgId : Nat) : FileDedup × Disk :=
  let tables := d.tables.markProcessed peer msgId
  (⟨tables⟩,
    if msgId = d.tables.cum peer + 1 ∧ tables.cum peer % 100 = 0 then
      savePeerState disk peer (tables.cum peer)
    else disk)

/-- `FileDedup::advance_cum`. -/
def advanceCum (d : FileDedup) (disk : Disk) (peer : Peer) (id : Nat) : FileDedup × Disk :=
  (⟨d.tables.advanceCum peer id⟩,
    if id > d.tables.cum peer then savePeerState disk peer id else disk)

/-- `FileDedup::snapshot`. -/
def snapshot (d : FileDedup) (disk : Disk) : Disk :=
  d.tables.cumProcessed.entries.foldl (fun disk e => savePeerState disk e.1 e.2) disk

end FileDedup

/-! ## The backend -/

/-- `Storage` with the file backend, and the disk it works on. -/
structure FileStorage (crates : Crates) where
  disk : Disk
  wal : FileWal
  dedup : FileDedup

/-- Both stores on a directory; `Storage::from_mode` uses a window of 65536. -/
def FileStorage.start (crates : Crates) (segmentBytes windowSize : Nat) (disk : Disk) :
    FileStorage crates :=
  { disk, wal := .new segmentBytes disk, dedup := .new windowSize disk }

namespace FileStorage

variable {crates : Crates}

/-- The state `FileWal` has in memory for a peer. -/
abbrev cached (s : FileStorage crates) (peer : Peer) : PeerState := s.wal.state peer

/-- The state on disk for a peer. -/
abbrev saved (s : FileStorage crates) (peer : Peer) : PeerState := s.disk.saved peer

/-- The watermark `FileDedup` has in memory for a peer. -/
abbrev watermark (s : FileStorage crates) (peer : Peer) : Nat := s.dedup.tables.cum peer

end FileStorage

instance (crates : Crates) : Wal (FileStorage crates) where
  append s peer entry :=
    let (wal, disk) := s.wal.append crates s.disk peer entry
    { s with wal, disk }
  range s := FileWal.range crates s.disk
  truncateThrough s peer upTo :=
    let (wal, disk) := s.wal.truncateThrough s.disk peer upTo
    { s with wal, disk }
  lastAppended s peer := (s.wal.state peer).lastAppended
  loadAck s peer := { cumAcked := (s.wal.state peer).cumAcked }
  storeAck s peer ack :=
    let (wal, disk) := s.wal.storeAck s.disk peer ack
    { s with wal, disk }

instance (crates : Crates) : Dedup (FileStorage crates) where
  isProcessed s := s.dedup.tables.isProcessed
  markProcessed s peer id :=
    let (dedup, disk) := s.dedup.markProcessed s.disk peer id
    { s with dedup, disk }
  cumProcessed s := s.dedup.tables.cum
  advanceCum s peer id :=
    let (dedup, disk) := s.dedup.advanceCum s.disk peer id
    { s with dedup, disk }
  snapshot s := { s with disk := s.dedup.snapshot s.disk }

/-! ## What the operations do to the counters

For every operation and every peer: the state `FileWal` has cached afterwards
(`cached`), the state on disk (`saved`) and the watermark `FileDedup` has in
memory (`watermark`). -/

theorem Disk.saved_insert (disk : Disk) (peer q : Peer) (dir : PeerDir) :
    Disk.saved (disk.insert peer dir) q
      = if q = peer then dir.stateJson.getD {} else disk.saved q := by
  unfold Disk.saved Disk.dir
  rw [HashMap.lookup_insert_ite]
  split <;> rfl

theorem Disk.saved_writeState (disk : Disk) (peer q : Peer) (state : PeerState) :
    (disk.writeState peer state).saved q = if q = peer then state else disk.saved q :=
  saved_insert ..

/-- Changing a directory without its `state.json` is not seen in the counters. -/
theorem Disk.saved_insert_same {disk : Disk} {peer : Peer} {dir : PeerDir}
    (h : dir.stateJson = (disk.dir peer).stateJson) (q : Peer) :
    Disk.saved (disk.insert peer dir) q = disk.saved q := by
  rw [saved_insert]
  by_cases hq : q = peer
  · rw [if_pos hq, hq, h]
    rfl
  · rw [if_neg hq]

theorem FileWal.state_setState (w : FileWal) (peer q : Peer) (state : PeerState) :
    (w.setState peer state).state q = if q = peer then state else w.state q := by
  unfold FileWal.state FileWal.setState
  dsimp only
  rw [HashMap.lookup_insert_ite]
  split <;> rfl

/-- A peer without a directory has the default state. -/
theorem Disk.saved_of_notMem {disk : Disk} {peer : Peer} (h : peer ∉ disk) :
    disk.saved peer = {} := by
  unfold Disk.saved Disk.dir
  rw [AList.lookup_eq_none.mpr h]
  rfl

theorem FileWal.state_of_notMem {w : FileWal} {peer : Peer} (h : peer ∉ w.peerStates) :
    w.state peer = {} := by
  unfold FileWal.state
  rw [AList.lookup_eq_none.mpr h]
  rfl

/-- A new `FileWal` has cached what is on disk. -/
theorem FileWal.state_new (segmentBytes : Nat) (disk : Disk) (peer : Peer) :
    (FileWal.new segmentBytes disk).state peer = disk.saved peer := by
  have h := HashMap.lookup_foldl_insert_if (fun _ (dir : PeerDir) => dir.stateJson.isSome = true)
    (fun _ dir => dir.stateJson.getD {}) disk.entries ∅ peer disk.nodupKeys
  unfold FileWal.state Disk.saved Disk.dir
  show (AList.lookup peer (FileWal.loadPeerStates disk)).getD {} = _
  unfold FileWal.loadPeerStates
  rw [h, show disk.entries.dlookup peer = disk.lookup peer from rfl]
  cases disk.lookup peer with
  | none => rfl
  | some dir =>
    cases hs : dir.stateJson <;> simp [hs]

/-- A new `FileDedup` has the watermark on disk. -/
theorem FileDedup.cum_new (windowSize : Nat) (disk : Disk) (peer : Peer) :
    (FileDedup.new windowSize disk).tables.cum peer = (disk.saved peer).cumProcessed := by
  have h := HashMap.lookup_foldl_insert_if (fun _ (dir : PeerDir) => dir.stateJson.isSome = true)
    (fun _ dir => (dir.stateJson.getD {}).cumProcessed) disk.entries ∅ peer disk.nodupKeys
  unfold DedupTables.cum Disk.saved Disk.dir
  show (AList.lookup peer (FileDedup.loadStates disk)).getD 0 = _
  unfold FileDedup.loadStates
  rw [h, show disk.entries.dlookup peer = disk.lookup peer from rfl]
  cases disk.lookup peer with
  | none => rfl
  | some dir =>
    cases hs : dir.stateJson <;> simp [hs]

namespace FileStorage

variable {crates : Crates}

/-- Opening a segment leaves the cached states as they are. -/
theorem state_getOrCreate (w : FileWal) (disk : Disk) (peer q : Peer) :
    (w.getOrCreateActiveSegment disk peer).1.state q = w.state q := by
  unfold FileWal.getOrCreateActiveSegment
  split <;> rfl

/-- Opening a segment and writing to it leave `state.json` as it is. -/
theorem saved_getOrCreate (w : FileWal) (disk : Disk) (peer q : Peer) :
    (w.getOrCreateActiveSegment disk peer).2.saved q = disk.saved q := by
  unfold FileWal.getOrCreateActiveSegment
  split
  · rfl
  · refine Disk.saved_insert_same ?_ q
    rfl

theorem saved_writeSegment (disk : Disk) (peer q : Peer) (num : Nat) (buf : Bytes) :
    (FileWal.writeSegment disk peer num buf).saved q = disk.saved q := by
  refine Disk.saved_insert_same ?_ q
  rfl

theorem cached_append (s : FileStorage crates) (peer q : Peer) (entry : WalEntry) :
    (Wal.append s peer entry).cached q
      = if q = peer then { s.cached peer with lastAppended := entry.msgId } else s.cached q := by
  show ((s.wal.getOrCreateActiveSegment s.disk peer).1.setState peer
    { (s.wal.getOrCreateActiveSegment s.disk peer).1.state peer with
      lastAppended := entry.msgId }).state q = _
  rw [FileWal.state_setState, state_getOrCreate, state_getOrCreate]

theorem saved_append (s : FileStorage crates) (peer q : Peer) (entry : WalEntry) :
    (Wal.append s peer entry).saved q
      = if q = peer ∧ entry.msgId % 100 = 0 then
          { s.cached peer with lastAppended := entry.msgId }
        else s.saved q := by
  have hwrite : ∀ o : Option Nat, Disk.saved
      (match o with
        | some num => FileWal.writeSegment (s.wal.getOrCreateActiveSegment s.disk peer).2 peer num
            (encodeRecord crates entry)
        | none => (s.wal.getOrCreateActiveSegment s.disk peer).2) q = s.disk.saved q := by
    intro o
    cases o with
    | none => exact saved_getOrCreate ..
    | some num => rw [saved_writeSegment, saved_getOrCreate]
  show (FileWal.append crates s.wal s.disk peer entry).2.saved q = _
  unfold FileWal.append
  dsimp only
  -- neither the segment nor its record touches `state.json`; only the save does
  by_cases h100 : entry.msgId % 100 = 0
  · rw [if_pos h100, Disk.saved_writeState, hwrite, state_getOrCreate]
    by_cases hq : q = peer
    · rw [if_pos hq, if_pos ⟨hq, h100⟩]
    · rw [if_neg hq, if_neg (fun h => hq h.1)]
  · rw [if_neg h100, if_neg (fun h => h100 h.2), hwrite]

theorem cached_storeAck (s : FileStorage crates) (peer q : Peer) (ack : AckState) :
    (Wal.storeAck s peer ack).cached q
      = if q = peer then { s.cached peer with cumAcked := ack.cumAcked } else s.cached q :=
  FileWal.state_setState ..

theorem saved_storeAck (s : FileStorage crates) (peer q : Peer) (ack : AckState) :
    (Wal.storeAck s peer ack).saved q
      = if q = peer then { s.cached peer with cumAcked := ack.cumAcked } else s.saved q :=
  Disk.saved_writeState ..

theorem cached_truncateThrough (s : FileStorage crates) (peer q : Peer) (upTo : Nat) :
    (Wal.truncateThrough s peer upTo).cached q
      = if q = peer ∧ (s.disk.dir peer).walDir = true ∧ upTo > (s.cached peer).cumAcked then
          { s.cached peer with cumAcked := upTo }
        else s.cached q := by
  show (FileWal.truncateThrough s.wal s.disk peer upTo).1.state q = _
  unfold FileWal.truncateThrough
  by_cases hdir : (s.disk.dir peer).walDir = true
  · rw [if_pos hdir]
    dsimp only
    by_cases hgt : upTo > (s.wal.state peer).cumAcked
    · rw [if_pos hgt, FileWal.state_setState]
      by_cases hq : q = peer
      · rw [if_pos hq, if_pos ⟨hq, hdir, hgt⟩]
      · rw [if_neg hq, if_neg (fun h => hq h.1)]
    · rw [if_neg hgt, FileWal.state_setState]
      refine Eq.trans ?_ (if_neg (fun h => hgt h.2.2)).symm
      by_cases hq : q = peer
      · rw [if_pos hq, hq]
      · rw [if_neg hq]
  · rw [if_neg hdir, if_neg (fun h => hdir h.2.1)]

theorem saved_truncateThrough (s : FileStorage crates) (peer q : Peer) (upTo : Nat) :
    (Wal.truncateThrough s peer upTo).saved q
      = if q = peer ∧ (s.disk.dir peer).walDir = true ∧ upTo > (s.cached peer).cumAcked then
          { s.cached peer with cumAcked := upTo }
        else s.saved q := by
  show (FileWal.truncateThrough s.wal s.disk peer upTo).2.saved q = _
  unfold FileWal.truncateThrough
  by_cases hdir : (s.disk.dir peer).walDir = true
  · rw [if_pos hdir]
    dsimp only
    by_cases hgt : upTo > (s.wal.state peer).cumAcked
    · rw [if_pos hgt, Disk.saved_writeState]
      by_cases hq : q = peer
      · rw [if_pos hq, if_pos ⟨hq, hdir, hgt⟩]
      · rw [if_neg hq, if_neg (fun h => hq h.1)]
    · rw [if_neg hgt, if_neg (fun h => hgt h.2.2)]
  · rw [if_neg hdir, if_neg (fun h => hdir h.2.1)]

/-- What a `FileDedup` operation does for a peer: the cache of `FileWal` is not
touched, the watermark does not go back, and `state.json` is left alone or gets
the watermark. -/
structure DedupStep (s s' : FileStorage crates) (q : Peer) : Prop where
  cached : s'.cached q = s.cached q
  watermark : s.watermark q ≤ s'.watermark q
  saved : s'.saved q = s.saved q ∨ s'.saved q = { s.saved q with cumProcessed := s'.watermark q }

/-- `save_peer_state` of `FileDedup` changes one counter of one peer. -/
theorem saved_savePeerState (disk : Disk) (peer q : Peer) (cum : Nat) :
    (FileDedup.savePeerState disk peer cum).saved q
      = if q = peer then { disk.saved q with cumProcessed := cum } else disk.saved q := by
  unfold FileDedup.savePeerState
  rw [Disk.saved_writeState]
  by_cases hq : q = peer
  · rw [if_pos hq, if_pos hq, hq]
  · rw [if_neg hq, if_neg hq]

theorem markProcessed_step (s : FileStorage crates) (peer q : Peer) (id : Nat) :
    DedupStep s (Dedup.markProcessed s peer id) q := by
  refine ⟨rfl, ?_, ?_⟩
  · show s.dedup.tables.cum q ≤ (s.dedup.tables.markProcessed peer id).cum q
    by_cases hq : q = peer
    · rw [hq]
      exact s.dedup.tables.cum_le_mark peer id
    · rw [(s.dedup.tables.mark_other hq id).1]
  · by_cases hsave : id = s.dedup.tables.cum peer + 1 ∧
        (s.dedup.tables.markProcessed peer id).cum peer % 100 = 0
    · have hdisk : (Dedup.markProcessed s peer id).disk = FileDedup.savePeerState s.disk peer
          ((s.dedup.tables.markProcessed peer id).cum peer) := if_pos hsave
      unfold FileStorage.saved
      rw [hdisk, saved_savePeerState]
      by_cases hq : q = peer
      · subst hq
        exact .inr (if_pos rfl)
      · exact .inl (if_neg hq)
    · have hdisk : (Dedup.markProcessed s peer id).disk = s.disk := if_neg hsave
      exact .inl (congrArg (Disk.saved · q) hdisk)

theorem advanceCum_step (s : FileStorage crates) (peer q : Peer) (id : Nat) :
    DedupStep s (Dedup.advanceCum s peer id) q := by
  have hcum : (Dedup.advanceCum s peer id).watermark q
      = if q = peer ∧ id > s.watermark peer then id else s.watermark q :=
    s.dedup.tables.cum_advanceCum peer q id
  have hsaved : (Dedup.advanceCum s peer id).saved q
      = if q = peer ∧ id > s.watermark peer then { s.saved q with cumProcessed := id }
        else s.saved q := by
    show Disk.saved (if id > s.dedup.tables.cum peer then _ else _) q = _
    by_cases hgt : id > s.dedup.tables.cum peer
    · rw [if_pos hgt, saved_savePeerState]
      by_cases hq : q = peer
      · rw [if_pos hq, if_pos ⟨hq, hgt⟩]
      · rw [if_neg hq, if_neg (fun h => hq h.1)]
    · rw [if_neg hgt, if_neg (fun h => hgt h.2)]
  by_cases hc : q = peer ∧ id > s.watermark peer
  · rw [if_pos hc] at hcum hsaved
    refine ⟨rfl, ?_, .inr (by rw [hsaved, hcum])⟩
    rw [hcum, hc.1]
    exact Nat.le_of_lt hc.2
  · rw [if_neg hc] at hcum hsaved
    exact ⟨rfl, Nat.le_of_eq hcum.symm, .inl hsaved⟩

/-- Saving a list of watermarks, one for each peer. -/
theorem saved_foldl_savePeerState :
    ∀ (l : List (Sigma fun _ : Peer => Nat)) (disk : Disk) (q : Peer), l.NodupKeys →
    Disk.saved (l.foldl (fun disk e => FileDedup.savePeerState disk e.1 e.2) disk) q
      = match l.dlookup q with
        | some cum => { disk.saved q with cumProcessed := cum }
        | none => disk.saved q
  | [], _, _, _ => rfl
  | ⟨peer, cum⟩ :: l, disk, q, hnodup => by
    rw [List.nodupKeys_cons] at hnodup
    rw [List.foldl_cons, saved_foldl_savePeerState l _ q hnodup.2, saved_savePeerState]
    by_cases hq : q = peer
    · subst hq
      rw [if_pos rfl, List.dlookup_cons_eq, List.dlookup_eq_none.mpr hnodup.1]
    · rw [if_neg hq, List.dlookup_cons_ne l ⟨peer, cum⟩ hq]

theorem snapshot_step (s : FileStorage crates) (q : Peer) : DedupStep s (Dedup.snapshot s) q := by
  refine ⟨rfl, Nat.le_refl _, ?_⟩
  have h := saved_foldl_savePeerState s.dedup.tables.cumProcessed.entries s.disk q
    s.dedup.tables.cumProcessed.nodupKeys
  have hcum : s.dedup.tables.cum q = (s.dedup.tables.cumProcessed.entries.dlookup q).getD 0 := rfl
  show Disk.saved (s.dedup.snapshot s.disk) q = _ ∨ Disk.saved (s.dedup.snapshot s.disk) q
    = { s.disk.saved q with cumProcessed := s.dedup.tables.cum q }
  unfold FileDedup.snapshot
  rw [h, hcum]
  cases s.dedup.tables.cumProcessed.entries.dlookup q with
  | none => exact .inl rfl
  | some cum => exact .inr rfl

end FileStorage

end MeshCore.Storage
