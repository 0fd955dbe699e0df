import MeshCore.Lib.Framing
import MeshCore.Storage.File

/-!
# The records of a segment

`FileWal::range` takes records off the front of a segment file for as long as one
is whole there. The records are a framing (`recordFraming`), and a canonical one:
what was taken off is the encoding of what came out (`decodeRecord_eq_some`). From
this the loop of `range` gets two descriptions, and nothing after this file
unfolds it again. On records that can be encoded, followed by a rest that is too
short to be one, it is the loop of the in-memory log (`readSegment_records`). And
reading everything succeeds only on such a buffer (`readSegment_eq_ok`).

Mirroring notes:
- A length that does not fit the 32 bits of `len` is cut to them, so no record
  with a longer frame is ever read back (`WalEntry.Fits`). Ids are `u64` in the
  source, so every id there fits.
-/

namespace MeshCore.Storage

open MeshCore.Lib MeshCore.Wire

/-! ## One record -/

/-- A record that its header can describe. -/
structure WalEntry.Fits (entry : WalEntry) : Prop where
  len : entry.bytes.length < 2 ^ 32
  msgId : entry.msgId < 2 ^ 64

instance (entry : WalEntry) : Decidable entry.Fits :=
  decidable_of_iff (entry.bytes.length < 2 ^ 32 ∧ entry.msgId < 2 ^ 64)
    ⟨fun h => ⟨h.1, h.2⟩, fun h => ⟨h.len, h.msgId⟩⟩

/-- Bytes that are no whole record: shorter than a header, or than the header says. -/
def Incomplete (bytes : Bytes) : Prop :=
  bytes.length < SegmentHeader.size ∨
    bytes.length < SegmentHeader.size + (SegmentHeader.decode bytes).len

instance (bytes : Bytes) : Decidable (Incomplete bytes) :=
  inferInstanceAs (Decidable (_ ∨ _))

/-- One round of the loop in `range`: the next record and what is behind it, or
none. -/
def decodeRecord (crates : Crates) (bytes : Bytes) :
    Except StorageError (Option WalEntry) × Bytes :=
  if Incomplete bytes then (.ok none, bytes)
  else
    let header := SegmentHeader.decode bytes
    let body := bytes.drop SegmentHeader.size
    let frameBytes := body.take header.len
    if header.crc32c ≠ SegmentHeader.computeCrc crates header.msgId frameBytes then
      (.error (.corruption ("CRC mismatch for msg_id " ++ toString header.msgId)), bytes)
    else (.ok (some { msgId := header.msgId, bytes := frameBytes }), body.drop header.len)

variable {crates : Crates}

theorem SegmentHeader.encode_length (h : SegmentHeader) : h.encode.length = size := by
  unfold encode
  rw [List.length_append, List.length_append, putLE_length, putLE_length, putLE_length]
  rfl

theorem encodeRecord_length (crates : Crates) (entry : WalEntry) :
    (encodeRecord crates entry).length = SegmentHeader.size + entry.bytes.length := by
  unfold encodeRecord
  rw [List.length_append, SegmentHeader.encode_length]

/-- The header `append` writes for a record. -/
def headerOf (crates : Crates) (entry : WalEntry) : SegmentHeader :=
  { len := entry.bytes.length, msgId := entry.msgId
    crc32c := SegmentHeader.computeCrc crates entry.msgId entry.bytes }

theorem encodeRecord_eq (crates : Crates) (entry : WalEntry) :
    encodeRecord crates entry = (headerOf crates entry).encode ++ entry.bytes := rfl

/-- The header of a record that fits is read back, whatever is behind it. -/
theorem decode_headerOf {entry : WalEntry} (h : entry.Fits) (rest : Bytes) :
    SegmentHeader.decode ((headerOf crates entry).encode ++ rest) = headerOf crates entry :=
  SegmentHeader.decode_encode h.len h.msgId rest

/-- **A header in front of a buffer** is what its fields encode to. -/
theorem SegmentHeader.encode_decode (bytes : Bytes) (h : size ≤ bytes.length) :
    (decode bytes).encode ++ bytes.drop size = bytes ∧
      (decode bytes).len < 2 ^ 32 ∧ (decode bytes).msgId < 2 ^ 64 := by
  have hsize : size = 16 := rfl
  have h₁ : (bytes.take 4).length = 4 := List.length_take_of_le (by omega)
  have h₂ : ((bytes.drop 4).take 8).length = 8 :=
    List.length_take_of_le (by rw [List.length_drop]; omega)
  have h₃ : ((bytes.drop 12).take 4).length = 4 :=
    List.length_take_of_le (by rw [List.length_drop]; omega)
  have hlen := getLE_lt (bytes.take 4)
  have hid := getLE_lt ((bytes.drop 4).take 8)
  have hcrc := getLE_lt ((bytes.drop 12).take 4)
  have hput₁ := putLE_getLE (bytes.take 4)
  have hput₂ := putLE_getLE ((bytes.drop 4).take 8)
  have hput₃ := putLE_getLE ((bytes.drop 12).take 4)
  rw [h₁] at hlen hput₁
  rw [h₂] at hid hput₂
  rw [h₃] at hcrc hput₃
  refine ⟨?_, hlen, hid⟩
  have hback : (UInt32.ofNat (getLE ((bytes.drop 12).take 4))).toNat
      = getLE ((bytes.drop 12).take 4) := by
    rw [UInt32.toNat_ofNat']
    exact Nat.mod_eq_of_lt hcrc
  unfold encode decode
  rw [hback, hput₁, hput₂, hput₃, hsize]
  calc bytes.take 4 ++ (bytes.drop 4).take 8 ++ (bytes.drop 12).take 4 ++ bytes.drop 16
      = bytes.take 4 ++ ((bytes.drop 4).take 8 ++ ((bytes.drop 12).take 4 ++ bytes.drop 16)) := by
        simp only [List.append_assoc]
    _ = bytes.take 4 ++ ((bytes.drop 4).take 8 ++ bytes.drop 12) := by
        rw [show bytes.drop 16 = (bytes.drop 12).drop 4 by rw [List.drop_drop],
          List.take_append_drop]
    _ = bytes := by
        rw [show bytes.drop 12 = (bytes.drop 4).drop 8 by rw [List.drop_drop],
          List.take_append_drop, List.take_append_drop]

theorem not_incomplete_encode {entry : WalEntry} (h : entry.Fits) (rest : Bytes) :
    ¬ Incomplete (encodeRecord crates entry ++ rest) := by
  unfold Incomplete
  rw [List.length_append, encodeRecord_length, encodeRecord_eq, List.append_assoc,
    decode_headerOf h]
  show ¬ (_ ∨ _ < SegmentHeader.size + entry.bytes.length)
  omega

/-- A whole record in front is taken off. -/
theorem decodeRecord_encode (crates : Crates) {entry : WalEntry} (h : entry.Fits) (rest : Bytes) :
    decodeRecord crates (encodeRecord crates entry ++ rest) = (.ok (some entry), rest) := by
  have hbody : (encodeRecord crates entry ++ rest).drop SegmentHeader.size
      = entry.bytes ++ rest := by
    rw [encodeRecord_eq, List.append_assoc, List.drop_left' (SegmentHeader.encode_length _)]
  have hheader : SegmentHeader.decode (encodeRecord crates entry ++ rest)
      = headerOf crates entry := by
    rw [encodeRecord_eq, List.append_assoc, decode_headerOf h]
  unfold decodeRecord
  rw [if_neg (not_incomplete_encode h rest), hbody, hheader]
  dsimp only [headerOf]
  rw [List.take_left, List.drop_left, if_neg (by simp)]

/-- A proper part of a record is no record. -/
theorem incomplete_of_part {entry : WalEntry} {p q : Bytes} (h : entry.Fits)
    (hpq : encodeRecord crates entry = p ++ q) (hq : q ≠ []) : Incomplete p := by
  have hlen : p.length + q.length = SegmentHeader.size + entry.bytes.length := by
    rw [← List.length_append, ← hpq, encodeRecord_length]
  have hqlen := List.length_pos_iff.mpr hq
  by_cases hshort : p.length < SegmentHeader.size
  · exact .inl hshort
  · -- the header is whole, and asks for more than there is
    obtain ⟨p', hp, -⟩ :
        ∃ p', p = (headerOf crates entry).encode ++ p' ∧ p' ++ q = entry.bytes := by
      rw [encodeRecord_eq] at hpq
      rcases List.append_eq_append_iff.mp hpq with ⟨p', hp, hrest⟩ | ⟨q', henc, hrest⟩
      · exact ⟨p', hp, hrest.symm⟩
      · have hsize := SegmentHeader.encode_length (headerOf crates entry)
        rw [henc, List.length_append] at hsize
        have hq' : q' = [] := List.length_eq_zero_iff.mp (by omega)
        rw [hq', List.append_nil] at henc
        rw [hq', List.nil_append] at hrest
        exact ⟨[], by rw [henc, List.append_nil], hrest⟩
    refine .inr ?_
    rw [hp, decode_headerOf h, ← hp]
    show p.length < SegmentHeader.size + entry.bytes.length
    omega

/-- **What was taken off** is the encoding of what came out. -/
theorem decodeRecord_eq_some {bytes rest : Bytes} {entry : WalEntry}
    (h : decodeRecord crates bytes = (.ok (some entry), rest)) :
    entry.Fits ∧ bytes = encodeRecord crates entry ++ rest := by
  unfold decodeRecord at h
  by_cases hinc : Incomplete bytes
  · rw [if_pos hinc] at h
    exact absurd h (by simp)
  rw [if_neg hinc] at h
  dsimp only at h
  split at h
  next => exact absurd h (by simp)
  next hcrc =>
    obtain ⟨hentry, hrest⟩ := Prod.mk.inj h
    have hentry := Option.some.inj (Except.ok.inj hentry)
    unfold Incomplete at hinc
    obtain ⟨henc, hlen, hid⟩ := SegmentHeader.encode_decode bytes (by omega)
    have hbody : ((bytes.drop SegmentHeader.size).take (SegmentHeader.decode bytes).len).length
        = (SegmentHeader.decode bytes).len :=
      List.length_take_of_le (by rw [List.length_drop]; omega)
    subst hentry
    refine ⟨⟨?_, hid⟩, ?_⟩
    · show ((bytes.drop SegmentHeader.size).take (SegmentHeader.decode bytes).len).length < _
      rw [hbody]
      exact hlen
    · have hheader : headerOf crates
          { msgId := (SegmentHeader.decode bytes).msgId
            bytes := (bytes.drop SegmentHeader.size).take (SegmentHeader.decode bytes).len }
          = SegmentHeader.decode bytes := by
        unfold headerOf
        dsimp only
        rw [hbody, ← not_not.mp hcrc]
      rw [encodeRecord_eq, hheader, ← hrest, List.append_assoc, List.take_append_drop, henc]

/-- The records of `FileWal`, as a framing of those that fit. -/
def recordFraming (crates : Crates) : Framing UInt8 WalEntry StorageError where
  decode := decodeRecord crates
  encode := encodeRecord crates
  Good := WalEntry.Fits
  decode_nil := rfl
  decode_encode := fun _ rest h => decodeRecord_encode crates h rest
  decode_partial := fun _ _ _ h hpq hq => if_pos (incomplete_of_part h hpq hq)
  encode_ne_nil := fun entry _ hnil => by
    have hlen := encodeRecord_length crates entry
    rw [hnil, SegmentHeader.size, List.length_nil] at hlen
    omega

/-- Records one behind the other, as a segment file holds them. -/
abbrev encodeAll (crates : Crates) (entries : List WalEntry) : Bytes :=
  (recordFraming crates).concat entries

theorem encodeAll_cons (crates : Crates) (entry : WalEntry) (entries : List WalEntry) :
    encodeAll crates (entry :: entries) = encodeRecord crates entry ++ encodeAll crates entries :=
  (recordFraming crates).concat_cons entry entries

theorem encodeAll_append (crates : Crates) (front entries : List WalEntry) :
    encodeAll crates (front ++ entries) = encodeAll crates front ++ encodeAll crates entries :=
  (recordFraming crates).concat_append front entries

theorem encodeAll_singleton (crates : Crates) (entry : WalEntry) :
    encodeAll crates [entry] = encodeRecord crates entry :=
  (encodeAll_cons crates entry []).trans (List.append_nil _)

/-! ## The records of a buffer -/

/-- The buffer is these records and then a rest that is no whole record. -/
structure Reads (crates : Crates) (bytes : Bytes) (entries : List WalEntry) : Prop where
  fits : ∀ entry ∈ entries, entry.Fits
  rest : ∃ tail, bytes = encodeAll crates entries ++ tail ∧ Incomplete tail

theorem incomplete_nil : Incomplete [] := .inl (by decide)

theorem reads_encodeAll {entries : List WalEntry} (h : ∀ entry ∈ entries, entry.Fits) :
    Reads crates (encodeAll crates entries) entries :=
  ⟨h, [], (List.append_nil _).symm, incomplete_nil⟩

theorem reads_nil_iff {bytes : Bytes} : Reads crates bytes [] ↔ Incomplete bytes := by
  constructor
  · rintro ⟨-, tail, rfl, htail⟩
    exact htail
  · intro h
    exact ⟨fun _ he => absurd he (List.not_mem_nil), bytes, rfl, h⟩

/-- A whole record in front is the first record of the buffer. -/
theorem reads_cons_iff {entry : WalEntry} (h : entry.Fits) {rest : Bytes}
    {entries : List WalEntry} :
    Reads crates (encodeRecord crates entry ++ rest) entries
      ↔ ∃ later, entries = entry :: later ∧ Reads crates rest later := by
  constructor
  · rintro ⟨hfits, tail, heq, htail⟩
    cases entries with
    | nil =>
      have htail' : encodeRecord crates entry ++ rest = tail := heq
      exact absurd (htail' ▸ htail) (not_incomplete_encode h rest)
    | cons first later =>
      have hfirst := hfits first (List.mem_cons_self ..)
      rw [encodeAll_cons, List.append_assoc] at heq
      have hdec := decodeRecord_encode crates h rest
      rw [heq] at hdec
      obtain ⟨hsome, hrest⟩ := Prod.mk.inj
        ((decodeRecord_encode crates hfirst _).symm.trans hdec)
      refine ⟨later, by rw [Option.some.inj (Except.ok.inj hsome)], ?_⟩
      exact ⟨fun e he => hfits e (List.mem_cons_of_mem _ he), tail, hrest.symm, htail⟩
  · rintro ⟨later, rfl, hfits, tail, rfl, htail⟩
    refine ⟨fun e he => ?_, tail, ?_, htail⟩
    · rcases List.mem_cons.mp he with rfl | he
      · exact h
      · exact hfits e he
    · rw [encodeAll_cons, List.append_assoc]

/-- **Whole records in front** are the first records of the buffer. -/
theorem reads_append_iff {front : List WalEntry} (h : ∀ entry ∈ front, entry.Fits) {rest : Bytes}
    {entries : List WalEntry} :
    Reads crates (encodeAll crates front ++ rest) entries
      ↔ ∃ later, entries = front ++ later ∧ Reads crates rest later := by
  induction front generalizing entries with
  | nil => exact ⟨fun hr => ⟨entries, rfl, hr⟩, fun ⟨_, heq, hr⟩ => heq ▸ hr⟩
  | cons entry front ih =>
    have ih := @ih fun e he => h e (List.mem_cons_of_mem _ he)
    rw [encodeAll_cons, List.append_assoc]
    refine (reads_cons_iff (h entry (List.mem_cons_self ..))).trans ?_
    constructor
    · rintro ⟨mid, rfl, hmid⟩
      obtain ⟨later, rfl, hlater⟩ := ih.mp hmid
      exact ⟨later, rfl, hlater⟩
    · rintro ⟨later, rfl, hlater⟩
      exact ⟨front ++ later, rfl, ih.mpr ⟨later, rfl, hlater⟩⟩

/-- A buffer is the same records however it is taken apart. -/
theorem Reads.unique {bytes : Bytes} {entries entries' : List WalEntry}
    (h : Reads crates bytes entries) (h' : Reads crates bytes entries') : entries' = entries := by
  obtain ⟨hfits, tail, rfl, htail⟩ := h
  obtain ⟨later, rfl, hlater⟩ := (reads_append_iff hfits).mp h'
  cases later with
  | nil => exact List.append_nil _
  | cons first later =>
    obtain ⟨hfits', tail', rfl, -⟩ := hlater
    rw [encodeAll_cons, List.append_assoc] at htail
    exact absurd htail (not_incomplete_encode (hfits' first (List.mem_cons_self ..)) _)

/-- Files that hold pieces of records read as these. -/
theorem reads_pieces {pieces : List (List WalEntry)}
    (h : ∀ entry ∈ pieces.flatten, entry.Fits) :
    List.Forall₂ (Reads crates) (pieces.map (encodeAll crates)) pieces := by
  rw [List.forall₂_map_left_iff, List.forall₂_same]
  exact fun piece hpiece =>
    reads_encodeAll fun entry hentry => h entry (List.mem_flatten.mpr ⟨piece, hpiece, hentry⟩)

/-- A file behind such files. -/
theorem reads_pieces_append_iff {older : List (List WalEntry)}
    (h : ∀ entry ∈ older.flatten, entry.Fits) {files : List Bytes} {pieces : List (List WalEntry)} :
    List.Forall₂ (Reads crates) (older.map (encodeAll crates) ++ files) pieces ↔
      ∃ later, pieces = older ++ later ∧ List.Forall₂ (Reads crates) files later := by
  constructor
  · intro hreads
    induction older generalizing pieces with
    | nil => exact ⟨pieces, rfl, hreads⟩
    | cons piece older ih =>
      have hpiece : ∀ entry ∈ piece, entry.Fits := fun entry hentry =>
        h entry (by rw [List.flatten_cons]; exact List.mem_append_left _ hentry)
      have holder : ∀ entry ∈ older.flatten, entry.Fits := fun entry hentry =>
        h entry (by rw [List.flatten_cons]; exact List.mem_append_right _ hentry)
      rw [List.map_cons, List.cons_append] at hreads
      cases hreads with
      | cons hfirst hrest =>
        obtain ⟨later, rfl, hlater⟩ := ih holder hrest
        refine ⟨later, ?_, hlater⟩
        rw [(reads_encodeAll hpiece).unique hfirst]
        rfl
  · rintro ⟨later, rfl, hlater⟩
    exact List.rel_append (reads_pieces h) hlater

theorem fits_of_reads {files : List Bytes} {pieces : List (List WalEntry)}
    (h : List.Forall₂ (Reads crates) files pieces) : ∀ entry ∈ pieces.flatten, entry.Fits := by
  induction h with
  | nil => exact fun entry hentry => absurd hentry (List.not_mem_nil)
  | cons hfirst _ ih =>
    intro entry hentry
    rw [List.flatten_cons] at hentry
    exact (List.mem_append.mp hentry).elim (hfirst.fits entry) (ih entry)

/-! ## The loop of `range` -/

/-- The loop of `range` over the records of one segment: what was collected, and
whether the limit was reached. -/
def collectSegment (fromExclusive : Nat) (limit : Option Nat) :
    List WalEntry → List WalEntry → List WalEntry × Bool
  | [], results => (results, false)
  | entry :: entries, results =>
    if entry.msgId > fromExclusive then
      let results := results ++ [entry]
      if limit.any (fun limit => results.length ≥ limit) then (results, true)
      else collectSegment fromExclusive limit entries results
    else collectSegment fromExclusive limit entries results

theorem collectSegment_append (fromExclusive : Nat) (limit : Option Nat)
    (front entries results : List WalEntry) :
    collectSegment fromExclusive limit (front ++ entries) results
      = if (collectSegment fromExclusive limit front results).2 then
          collectSegment fromExclusive limit front results
        else collectSegment fromExclusive limit entries
          (collectSegment fromExclusive limit front results).1 := by
  induction front generalizing results with
  | nil => rfl
  | cons entry front ih =>
    rw [List.cons_append, collectSegment, collectSegment]
    dsimp only
    split
    · split
      · exact (if_pos rfl).symm
      · exact ih _
    · exact ih _

/-- The in-memory log runs the same loop. -/
theorem collect_eq_collectSegment (fromExclusive : Nat) (limit : Option Nat)
    (entries results : List WalEntry) :
    MemoryWal.collect fromExclusive limit entries results
      = (collectSegment fromExclusive limit entries results).1 := by
  induction entries generalizing results with
  | nil => rfl
  | cons entry entries ih =>
    unfold MemoryWal.collect collectSegment
    dsimp only
    split
    · split
      · rfl
      · exact ih _
    · exact ih _

/-- Entries that the filter of the loop drops make no difference to it. -/
theorem collect_filter (fromExclusive : Nat) (limit : Option Nat)
    (entries results : List WalEntry) :
    MemoryWal.collect fromExclusive limit entries results
      = MemoryWal.collect fromExclusive limit
          (entries.filter fun entry => entry.msgId > fromExclusive) results := by
  induction entries generalizing results with
  | nil => rfl
  | cons entry entries ih =>
    by_cases hid : entry.msgId > fromExclusive
    · rw [List.filter_cons_of_pos (by simpa using hid)]
      unfold MemoryWal.collect
      rw [if_pos hid, if_pos hid]
      dsimp only
      rw [ih]
    · rw [List.filter_cons_of_neg (by simpa using hid), ← ih]
      exact if_neg hid

namespace FileWal

/-- One round of the loop takes one record. -/
theorem readSegment_succ (fromExclusive : Nat) (limit : Option Nat) (fuel : Nat) (bytes : Bytes)
    (results : List WalEntry) :
    readSegment crates fromExclusive limit (fuel + 1) bytes results
      = match decodeRecord crates bytes with
        | (.ok none, _) => .ok (results, false)
        | (.error e, _) => .error e
        | (.ok (some entry), rest) =>
          if entry.msgId > fromExclusive then
            if limit.any (fun limit => (results ++ [entry]).length ≥ limit) then
              .ok (results ++ [entry], true)
            else readSegment crates fromExclusive limit fuel rest (results ++ [entry])
          else readSegment crates fromExclusive limit fuel rest results := by
  rw [readSegment, decodeRecord]
  by_cases hshort : bytes.length < SegmentHeader.size
  · rw [if_pos hshort, if_pos (show Incomplete bytes from .inl hshort)]
  · have hbody : (bytes.drop SegmentHeader.size).length < (SegmentHeader.decode bytes).len
        ↔ Incomplete bytes := by
      unfold Incomplete
      rw [List.length_drop]
      omega
    rw [if_neg hshort]
    dsimp only
    by_cases hinc : Incomplete bytes
    · rw [if_pos (hbody.mpr hinc), if_pos hinc]
    · rw [if_neg (fun h => hinc (hbody.mp h)), if_neg hinc]
      by_cases hcrc : (SegmentHeader.decode bytes).crc32c
          ≠ SegmentHeader.computeCrc crates (SegmentHeader.decode bytes).msgId
            ((bytes.drop SegmentHeader.size).take (SegmentHeader.decode bytes).len)
      · rw [if_pos hcrc, if_pos hcrc]
      · rw [if_neg hcrc, if_neg hcrc]

/-- **Reading records**: a segment that holds these records, and perhaps a torn one
behind them, is read as the in-memory log goes through its entries. -/
theorem readSegment_records (fromExclusive : Nat) (limit : Option Nat) {entries : List WalEntry}
    {bytes : Bytes} (h : Reads crates bytes entries) {fuel : Nat} (hfuel : bytes.length ≤ fuel)
    (results : List WalEntry) :
    readSegment crates fromExclusive limit fuel bytes results
      = .ok (collectSegment fromExclusive limit entries results) := by
  induction entries generalizing bytes fuel results with
  | nil =>
    cases fuel with
    | zero => rfl
    | succ fuel =>
      rw [readSegment_succ, decodeRecord, if_pos (reads_nil_iff.mp h)]
      rfl
  | cons entry entries ih =>
    obtain ⟨hfits, tail, heq, htail⟩ := h
    have hentry := hfits entry (List.mem_cons_self ..)
    rw [encodeAll_cons, List.append_assoc] at heq
    rw [heq, List.length_append, encodeRecord_length, SegmentHeader.size] at hfuel
    cases fuel with
    | zero => omega
    | succ fuel =>
      have hrest : (encodeAll crates entries ++ tail).length ≤ fuel := by omega
      have hreads : Reads crates (encodeAll crates entries ++ tail) entries :=
        ⟨fun e he => hfits e (List.mem_cons_of_mem _ he), tail, rfl, htail⟩
      rw [heq, readSegment_succ, decodeRecord_encode crates hentry]
      unfold collectSegment
      dsimp only
      rw [ih hreads hrest, ih hreads hrest]
      split
      · split <;> rfl
      · rfl

/-- **What was read without a limit** are the records of the segment: reading ends
well only on a buffer that holds records. -/
theorem readSegment_eq_ok {fromExclusive fuel : Nat} {bytes : Bytes}
    {results found : List WalEntry} {reached : Bool} (hfuel : bytes.length ≤ fuel)
    (h : readSegment crates fromExclusive none fuel bytes results = .ok (found, reached)) :
    reached = false ∧ ∃ entries, Reads crates bytes entries ∧
      found = results ++ entries.filter fun entry => entry.msgId > fromExclusive := by
  induction fuel generalizing bytes results with
  | zero =>
    obtain ⟨rfl, rfl⟩ := Prod.mk.inj (Except.ok.inj h)
    have hnil : bytes = [] := List.length_eq_zero_iff.mp (by omega)
    exact ⟨rfl, [], hnil ▸ reads_nil_iff.mpr incomplete_nil, (List.append_nil _).symm⟩
  | succ fuel ih =>
    rw [readSegment_succ] at h
    split at h
    next rest hdec =>
      obtain ⟨rfl, rfl⟩ := Prod.mk.inj (Except.ok.inj h)
      refine ⟨rfl, [], reads_nil_iff.mpr ?_, (List.append_nil _).symm⟩
      by_contra hinc
      rw [decodeRecord, if_neg hinc] at hdec
      dsimp only at hdec
      split at hdec <;> simp at hdec
    next => exact absurd h (by simp)
    next entry rest hdec =>
      obtain ⟨hentry, hbytes⟩ := decodeRecord_eq_some hdec
      have hrest : rest.length ≤ fuel := by
        rw [hbytes, List.length_append, encodeRecord_length, SegmentHeader.size] at hfuel
        omega
      by_cases hid : entry.msgId > fromExclusive
      · rw [if_pos hid, Option.any_none, if_neg (by simp)] at h
        obtain ⟨hreached, entries, hreads, hfound⟩ := ih hrest h
        refine ⟨hreached, entry :: entries, ?_, ?_⟩
        · exact hbytes ▸ (reads_cons_iff hentry).mpr ⟨entries, rfl, hreads⟩
        · rw [hfound, List.filter_cons_of_pos (by simpa using hid), List.append_assoc]
          rfl
      · rw [if_neg hid] at h
        obtain ⟨hreached, entries, hreads, hfound⟩ := ih hrest h
        refine ⟨hreached, entry :: entries, ?_, ?_⟩
        · exact hbytes ▸ (reads_cons_iff hentry).mpr ⟨entries, rfl, hreads⟩
        · rw [hfound, List.filter_cons_of_neg (by simpa using hid)]

end FileWal

end MeshCore.Storage
