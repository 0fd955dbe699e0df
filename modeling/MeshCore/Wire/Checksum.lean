import MeshCore.Wire.Builder

/-!
# The header checksum

A builder whose header has `HDR_CHECKSUM` puts a checksum of the header and the hint
into the metadata. It is taken in `build`, before the frame exists, over what the
calls have made of the header; it is the checksum of the header and the hint that
arrive (`checksum_verifies`), as long as the frame fits its length field
(`checksum_lost_four_gib`).

For runs on concrete bytes there are the crates restricted to metadata with nothing
but a checksum (`checksumCrates`), with a reader that undoes them.
-/

namespace MeshCore.Wire

open MeshCore.Lib

/-- What is assumed of `ciborium`: the reader undoes the writer on a map of text keys
to values that can be inserted, and keeps the order of its entries. -/
def ReadsBackInserted (crates : Crates) (fromReader : Bytes → Option CborValue) : Prop :=
  ∀ (entries : List (String × CborValue)) (bytes : Bytes), (∀ e ∈ entries, e.2.Inserted) →
    crates.intoWriter (.map (entries.map fun e => (.text e.1, e.2))) = some bytes →
    fromReader bytes = some (.map (entries.map fun e => (.text e.1, e.2)))

/-- A header that asks for a checksum. -/
def checksumHeader (typ : FrameType) (srcNode dstNode msgId : UInt64) : FastHeader :=
  let fast := FastHeader.new typ srcNode dstNode msgId
  { fast with flags := fast.flags.union .hdrChecksum }

theorem checksumHeader_wellFormed (typ : FrameType) (srcNode dstNode msgId : UInt64) :
    (checksumHeader typ srcNode dstNode msgId).WellFormed := by
  have hfast := fastHeader_new_wellFormed typ srcNode dstNode msgId
  exact ⟨hfast.ver, hfast.flags.union (by decide), hfast.reserved0, hfast.ttl⟩

theorem getMetaU32_insertU32 (m : MetaBuilder) (key : String) (n : UInt32) :
    getMetaU32 (m.insertU32 key n).map key = some n := by
  have hget : (m.insertU32 key n).map.get key = some (.integer n.toNat) :=
    (BTreeMap.get_insert m.map key key _).trans (if_pos rfl)
  unfold getMetaU32
  rw [hget]
  refine (if_pos (u32_inserted n)).trans ?_
  rw [Int.toNat_natCast, UInt32.ofNat_toNat]

/-- **The receiver can verify the header checksum.** After any calls on a builder whose
header asks for a checksum, the metadata of the frame that arrives has, under
`hdr_csum`, the checksum of the header and the hint that arrive; also over a value of
that key that was inserted before. The frame must fit its length field. -/
theorem checksum_verifies (crates : Crates) (fromReader : Bytes → Option CborValue)
    (hread : ReadsBackInserted crates fromReader) (typ : FrameType)
    (srcNode dstNode msgId : UInt64) (calls : List BuilderCall) (maxFrame : Nat) (bytes : Bytes)
    (hbuild : (builderOf (checksumHeader typ srcNode dstNode msgId) calls).build crates maxFrame
      = .ok bytes)
    (h32 : bytes.length - 4 < 2 ^ 32) (d : FrameDecoder) (f : Frame) (rest : Bytes)
    (hdecode : d.decode bytes = (.ok (some f), rest)) :
    ∃ m, parseMeta fromReader f.metaRaw = .ok m ∧
      getMetaU32 m "hdr_csum" = some (crc32cFastHeader crates f.fast f.hint) := by
  obtain ⟨metaRaw, hmeta, rfl, -⟩ := FrameBuilder.build_eq_ok hbuild
  have hflag := flags_builderOf (checksumHeader typ srcNode dstNode msgId) .hdrChecksum
    (Flags.contains_union_right ..) calls
  have hbuilt := built_builderOf (checksumHeader_wellFormed typ srcNode dstNode msgId) rfl calls
  generalize builderOf (checksumHeader typ srcNode dstNode msgId) calls = b at *
  obtain ⟨rfl, -, -, -⟩ := (FrameDecoder.decode_bytes_iff (hbuilt.framed h32)).mp hdecode
  have hfinal : b.finalMeta crates
      = b.metadata.insertU32 "hdr_csum" (crc32cFastHeader crates b.fast b.hintTlv) := if_pos hflag
  have hinsert := hbuilt.insert "hdr_csum"
    (u32_inserted (crc32cFastHeader crates b.fast b.hintTlv))
  rw [hfinal] at hmeta
  refine ⟨_, parseMeta_of_read hinsert.sorted
    (hread _ metaRaw hinsert.inserted (MetaBuilder.build_eq_ok hmeta)), ?_⟩
  -- an empty hint adds nothing to the checksum, as none does
  have hcsum : crc32cFastHeader crates (b.sent metaRaw).fast (b.sent metaRaw).hint
      = crc32cFastHeader crates b.fast b.hintTlv := by
    unfold crc32cFastHeader
    rw [FrameBuilder.sent_hint_getD]
    rfl
  rw [hcsum]
  exact getMetaU32_insertU32 ..

/-- The crates as they are, on metadata with nothing but a checksum. -/
def checksumCrates : Crates where
  intoWriter
    | .map [(.text key, .integer i)] =>
      if key = "hdr_csum" ∧ 0 ≤ i ∧ i < 2 ^ 32 then
        some (cborEncode (.map [(.text key, .integer i)]))
      else none
    | _ => none
  toVec v := some (cborEncode v)
  crc32 := crc32Ieee

/-- An unsigned integer of at most 32 bits. -/
def readCborUint : Bytes → Option Nat
  | [] => none
  | initial :: rest =>
    if initial < 24 ∧ rest = [] then some initial.toNat
    else if (initial = 24 ∧ rest.length = 1) ∨ (initial = 25 ∧ rest.length = 2) ∨
        (initial = 26 ∧ rest.length = 4) then
      some (getBE rest)
    else none

/-- The head of a map of one entry, and its key `hdr_csum`. -/
def checksumKey : Bytes := [0xA1, 0x68, 0x68, 0x64, 0x72, 0x5F, 0x63, 0x73, 0x75, 0x6D]

/-- The reader on what these crates write. -/
def checksumReader (bytes : Bytes) : Option CborValue :=
  if bytes.take checksumKey.length = checksumKey then
    (readCborUint (bytes.drop checksumKey.length)).map fun n =>
      .map [(.text "hdr_csum", .integer n)]
  else none

theorem checksumCrates_write (n : UInt32) :
    checksumCrates.intoWriter (.map [(.text "hdr_csum", .integer n.toNat)])
      = some (cborEncode (.map [(.text "hdr_csum", .integer n.toNat)])) := by
  unfold checksumCrates
  dsimp only
  rw [if_pos ⟨rfl, u32_inserted n⟩]

theorem checksumCrates_build (n : UInt32) :
    (MetaBuilder.new.insertU32 "hdr_csum" n).build checksumCrates
      = .ok (cborEncode (.map [(.text "hdr_csum", .integer n.toNat)])) := by
  have hmap : (MetaBuilder.new.insertU32 "hdr_csum" n).map.map (fun e => (CborValue.text e.1, e.2))
      = [(.text "hdr_csum", .integer n.toNat)] := rfl
  refine MetaBuilder.build_of_write ?_
  exact (congrArg (fun entries => checksumCrates.intoWriter (.map entries)) hmap).trans
    (checksumCrates_write n)

theorem readCborUint_cons {initial : UInt8} {rest : Bytes}
    (h : (initial = 24 ∧ rest.length = 1) ∨ (initial = 25 ∧ rest.length = 2) ∨
      (initial = 26 ∧ rest.length = 4)) : readCborUint (initial :: rest) = some (getBE rest) := by
  have hlarge : ¬ (initial < 24 ∧ rest = []) := by
    rintro ⟨hlt, -⟩
    rcases h with ⟨rfl, -⟩ | ⟨rfl, -⟩ | ⟨rfl, -⟩ <;> exact absurd hlt (by decide)
  exact (if_neg hlarge).trans (if_pos h)

theorem readCborUint_cborHead {n : Nat} (h : n < 2 ^ 32) :
    readCborUint (cborHead 0 n) = some n := by
  have hread : ∀ k, n < 256 ^ k → some (getBE (putBE k n)) = some n := fun k hk => by
    rw [getBE_putBE, Nat.mod_eq_of_lt hk]
  unfold cborHead
  split
  next hsmall =>
    have hinitial : (UInt8.ofNat (32 * 0 + n)).toNat = n := by
      rw [Nat.mul_zero, Nat.zero_add]
      exact UInt8.toNat_ofNat_of_lt' (Nat.lt_trans hsmall (by decide))
    refine (if_pos ⟨UInt8.lt_iff_toNat_lt.mpr ?_, rfl⟩).trans (congrArg some hinitial)
    rw [hinitial]
    exact hsmall
  next =>
    split
    next hn => exact (readCborUint_cons (Or.inl ⟨rfl, putBE_length 1 n⟩)).trans (hread 1 hn)
    next =>
      split
      next hn =>
        exact (readCborUint_cons (Or.inr (Or.inl ⟨rfl, putBE_length 2 n⟩))).trans (hread 2 hn)
      next => exact (readCborUint_cons (Or.inr (Or.inr ⟨rfl, putBE_length 4 n⟩))).trans (hread 4 h)

theorem cborHead_u32_length_le {n : Nat} (h : n < 2 ^ 32) : (cborHead 0 n).length ≤ 5 := by
  unfold cborHead
  split
  next => exact Nat.le_add_left 1 4
  next =>
    split
    next => exact Nat.le_add_left 2 3
    next =>
      split
      next => exact Nat.le_add_left 3 2
      next => exact Nat.le_refl 5

theorem checksum_encode (n : Nat) :
    cborEncode (.map [(.text "hdr_csum", .integer n)]) = checksumKey ++ cborHead 0 n := by
  simp only [cborEncode, cborEncodeEntries]
  rw [if_pos (Int.natCast_nonneg n), Int.toNat_natCast, List.append_nil]
  rfl

theorem checksum_readsBack : ReadsBackInserted checksumCrates checksumReader := by
  intro entries bytes _ hwrite
  generalize entries.map (fun e => (CborValue.text e.1, e.2)) = pairs at hwrite ⊢
  unfold checksumCrates at hwrite
  dsimp only at hwrite
  split at hwrite
  next key i heq =>
    split at hwrite
    next hkey =>
      obtain ⟨rfl, hpos, hlt⟩ := hkey
      obtain rfl : pairs = _ := CborValue.map.inj heq
      obtain ⟨n, rfl⟩ := Int.eq_ofNat_of_zero_le hpos
      have hn : n < 2 ^ 32 := by exact_mod_cast hlt
      rw [← Option.some.inj hwrite, checksum_encode]
      unfold checksumReader
      rw [List.take_left, if_pos rfl, List.drop_left, readCborUint_cborHead hn]
      rfl
    next => exact absurd hwrite (by simp)
  next => exact absurd hwrite (by simp)

/-- Two hints, the second empty, and a value that someone else put under the key. -/
theorem checksum_verifies_hints :
    let calls := [.withHintTlv [1, 2], .withCrypto, .metaInsertStr "hdr_csum" "?", .payload [8],
      .withHintTlv []]
    ∃ bytes f rest,
      (builderOf (checksumHeader .data 1 9 7) calls).build checksumCrates 65536 = .ok bytes ∧
      FrameDecoder.new.decode bytes = (.ok (some f), rest) ∧
      ∃ m, parseMeta checksumReader f.metaRaw = .ok m ∧
        getMetaU32 m "hdr_csum" = some (crc32cFastHeader checksumCrates f.fast f.hint) := by
  intro calls
  obtain ⟨bytes, hbuild⟩ := exists_of_isOk (by decide +kernel :
    ((builderOf (checksumHeader .data 1 9 7) calls).build checksumCrates 65536).isOk = true)
  obtain ⟨metaRaw, hmeta, hbytes, hlen⟩ := FrameBuilder.build_eq_ok hbuild
  have hbuilt := built_builderOf (checksumHeader_wellFormed .data 1 9 7) rfl calls
  have h32 : bytes.length - 4 < 2 ^ 32 := by omega
  have hframed := hbuilt.framed (hbytes ▸ h32)
  have hsize : bytes.length = _ := hbytes ▸ Frame.bytes_length _
  rw [hsize, Frame.encodedSize] at hlen
  have hmetaLen : metaRaw.length ≤ 65536 := by
    change _ + metaRaw.length + _ ≤ _ at hlen
    omega
  have hdecode := (FrameDecoder.decode_bytes_iff (d := .new) hframed).mpr
    ⟨rfl, rfl, hmetaLen, Nat.le_trans (Nat.sub_le ..) (Nat.le_trans hlen (by decide))⟩
  rw [← hbytes] at hdecode
  exact ⟨bytes, _, _, hbuild, hdecode, checksum_verifies checksumCrates checksumReader
    checksum_readsBack .data 1 9 7 calls 65536 bytes hbuild h32 .new _ _ hdecode⟩

/-- A builder with one hint builds a frame with no metadata but the checksum. -/
theorem hinted_build (tlv : Bytes) {b : FrameBuilder}
    (hb : builderOf (checksumHeader .data 1 9 7) [.withHintTlv tlv] = b) (maxFrame : Nat)
    (hmax : tlv.length + 71 ≤ maxFrame) :
    ∃ cbor, cbor.length ≤ 15 ∧
      b.build checksumCrates maxFrame = .ok (b.frame cbor []).bytes := by
  have hflag : b.fast.flags.contains .hdrChecksum = true := hb ▸ Flags.contains_union_right ..
  generalize hcsum : crc32cFastHeader checksumCrates b.fast b.hintTlv = csum
  have hlen : (cborEncode (.map [(.text "hdr_csum", .integer csum.toNat)])).length ≤ 15 := by
    rw [checksum_encode, List.length_append]
    exact Nat.add_le_add_left (cborHead_u32_length_le csum.toNat_lt) 10
  have hfinal : b.finalMeta checksumCrates = MetaBuilder.new.insertU32 "hdr_csum" csum := by
    unfold FrameBuilder.finalMeta
    rw [if_pos hflag, hcsum, ← hb]
    rfl
  refine ⟨_, hlen, ?_⟩
  rw [FrameBuilder.build_eq, hfinal, checksumCrates_build]
  generalize cborEncode _ = cbor at hlen
  have hsize : (b.frame cbor []).encodedSize
      = 4 + fastHeaderSize + tlv.length + 4 + cbor.length := by
    rw [← hb]
    rfl
  have hbody : b.body = [] := by
    rw [← hb]
    rfl
  dsimp only
  rw [hbody, if_neg]
  rw [hsize, fastHeaderSize]
  omega

/-- The bytes of a frame with a hint of 4 GiB of zeros begin with those of a frame with
no hint and no metadata, and with zeros of the hint as payload. -/
theorem hinted_front {b : FrameBuilder} {tlv cbor : Bytes} (hb : b.hintTlv = some tlv)
    (htlv : tlv = List.replicate (2 ^ 32) 0) (hcbor : cbor.length ≤ 15) :
    ∃ rest, (b.frame cbor []).bytes = Frame.bytes ⟨b.fast, none, [],
      List.replicate cbor.length 0⟩ ++ rest := by
  obtain ⟨k, hk⟩ : ∃ k, 2 ^ 32 = 4 + (cbor.length + k) := ⟨2 ^ 32 - 4 - cbor.length, by omega⟩
  have htlvLen : tlv.length = 2 ^ 32 := by
    rw [htlv]
    exact List.length_replicate
  have hframe : b.frame cbor [] = ⟨b.fast, some tlv, cbor, []⟩ := by
    unfold FrameBuilder.frame
    rw [hb]
    rfl
  have hlenField : UInt32.ofNat ((b.frame cbor []).encodedSize - 4)
      = UInt32.ofNat (Frame.encodedSize ⟨b.fast, none, [], List.replicate cbor.length 0⟩ - 4) := by
    refine UInt32.toNat.inj ?_
    rw [UInt32.toNat_ofNat', UInt32.toNat_ofNat', hframe]
    simp only [Frame.encodedSize, List.length_replicate, List.length_nil, htlvLen]
    omega
  refine ⟨List.replicate k 0 ++ (putU32 (UInt32.ofNat cbor.length) ++ (cbor ++ [])), ?_⟩
  unfold Frame.bytes
  rw [hlenField, hframe]
  show putU32 _ ++ (b.fast.encode ++ (tlv ++ _)) = (putU32 _ ++ (b.fast.encode ++ ([] ++ (putU32 0
    ++ ([] ++ List.replicate cbor.length 0))))) ++ _
  rw [htlv, hk, List.replicate_add, List.replicate_add,
    show putU32 0 = List.replicate 4 0 from rfl]
  simp only [List.append_assoc, List.nil_append]

/-- A hint of 4 GiB of zeros. Its length is written as 0, and the length of the frame
without it, so the decoder finds a frame with no hint and no metadata in front. -/
theorem checksum_lost_four_gib :
    ¬ ∀ (crates : Crates) (fromReader : Bytes → Option CborValue),
      ReadsBackInserted crates fromReader →
      ∀ (typ : FrameType) (srcNode dstNode msgId : UInt64) (calls : List BuilderCall)
        (maxFrame : Nat) (bytes : Bytes) (f : Frame) (rest : Bytes),
        (builderOf (checksumHeader typ srcNode dstNode msgId) calls).build crates maxFrame
          = .ok bytes →
        FrameDecoder.new.decode bytes = (.ok (some f), rest) →
        ∃ m, parseMeta fromReader f.metaRaw = .ok m ∧
          getMetaU32 m "hdr_csum" = some (crc32cFastHeader crates f.fast f.hint) := by
  intro h
  obtain ⟨tlv, htlv⟩ : ∃ tlv : Bytes, tlv = List.replicate (2 ^ 32) 0 := ⟨_, rfl⟩
  have htlvLen : tlv.length = 2 ^ 32 := by
    rw [htlv]
    exact List.length_replicate
  obtain ⟨cbor, hcbor, hbuild⟩ := hinted_build tlv rfl (2 ^ 33) (by omega)
  have hbuilt := built_builderOf (checksumHeader_wellFormed .data 1 9 7) rfl [.withHintTlv tlv]
  have hhintLen : (builderOf (checksumHeader .data 1 9 7) [.withHintTlv tlv]).fast.hdrHintLen
      = 0 := by
    show UInt32.ofNat tlv.length = 0
    rw [htlvLen]
    rfl
  obtain ⟨rest, hbytes⟩ := hinted_front (b := builderOf (checksumHeader .data 1 9 7)
    [.withHintTlv tlv]) rfl htlv hcbor
  have hsmall : 4 + fastHeaderSize + 0 + 4 + 0 + (List.replicate cbor.length (0 : UInt8)).length - 4
      ≤ 67 := by
    rw [List.length_replicate, fastHeaderSize]
    omega
  have hdecode := (FrameDecoder.decode_eq_some (d := .new)).mpr
    ⟨hbytes, ⟨hbuilt.fast, hhintLen, Nat.zero_le _⟩, Nat.le_trans hsmall (by decide),
      Nat.lt_of_le_of_lt hsmall (by decide)⟩
  obtain ⟨m, hparse, -⟩ := h checksumCrates checksumReader checksum_readsBack .data 1 9 7 _ _ _ _
    rest hbuild hdecode
  have hnone : parseMeta checksumReader [] = .error .metaDecode := rfl
  rw [hnone] at hparse
  exact absurd hparse (by simp)

end MeshCore.Wire
