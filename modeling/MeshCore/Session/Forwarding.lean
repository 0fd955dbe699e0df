import MeshCore.Session.Messages

/-!
# A message over several hops

A node that forwards a message decodes the frame, takes the message apart into
an `InboundMessage`, makes an `OutboundMessage` of it and builds a frame again.
The header map goes through a hash map, a map in key order, CBOR bytes, a map in
key order and a hash map again, and the acknowledgment flag and the message ID
have encodings of their own. What the frame is built from depends on the header
map only through its lookups (`metaMap_congr`), so a message that carries
neither of the two special headers comes out as it went in, and every hop emits
the same bytes (`message_survives_hops`).
-/

namespace MeshCore.Session

open MeshCore.Lib MeshCore.Wire

/-! ## The metadata map -/

theorem metaMap_sorted (m : OutboundMessage) : m.metaMap.Sorted keyLt := by
  unfold OutboundMessage.metaMap
  refine BTreeMap.Sorted.foldl_insert_if keyLt_strictOrder (fun key _ => key ≠ "frame_type")
    (fun _ value => CborValue.bytes value) _ ?_
  split
  · exact List.pairwise_singleton ..
  · exact List.Pairwise.nil

/-- What the metadata has under a key: the header, or else the acknowledgment
flag. -/
theorem metaMap_get (m : OutboundMessage) (key : String) :
    m.metaMap.get key
      = ((m.headers.lookup key).bind fun value =>
          if key ≠ "frame_type" then some (.bytes value) else none).or
        (if m.requireAck ∧ key = "require_ack" then some (.text "true") else none) := by
  unfold OutboundMessage.metaMap
  refine (BTreeMap.get_foldl_insert_if (fun key _ => key ≠ "frame_type")
    (fun _ value => CborValue.bytes value) m.headers.entries _ key m.headers.nodupKeys).trans ?_
  refine congrArg (Option.or _) ?_
  cases m.requireAck with
  | false => rfl
  | true =>
    rw [if_pos rfl, BTreeMap.get_cons, BTreeMap.get_nil]
    by_cases hkey : key = "require_ack"
    · simp [hkey]
    · simp [hkey, Ne.symm hkey]

theorem metaMap_plain (m : OutboundMessage) : ∀ e ∈ m.metaMap, e.2.Plain := by
  intro e he
  have hget : m.metaMap.get e.1 = some e.2 :=
    (BTreeMap.get_eq_some_iff keyLt_strictOrder (metaMap_sorted m)).mpr he
  rw [metaMap_get] at hget
  rcases Option.or_eq_some_iff.mp hget with hheader | ⟨_, hflag⟩
  · obtain ⟨value, _, hvalue⟩ := Option.bind_eq_some_iff.mp hheader
    split at hvalue
    · rw [← Option.some.inj hvalue]
      trivial
    · exact absurd hvalue (by simp)
  · split at hflag
    · rw [← Option.some.inj hflag]
      trivial
    · exact absurd hflag (by simp)

/-- The metadata depends on the contents of the header map, not on its order. -/
theorem metaMap_congr {m₁ m₂ : OutboundMessage}
    (hheaders : ∀ key, m₁.headers.lookup key = m₂.headers.lookup key)
    (hack : m₁.requireAck = m₂.requireAck) : m₁.metaMap = m₂.metaMap := by
  refine BTreeMap.Sorted.ext keyLt_strictOrder (metaMap_sorted m₁) (metaMap_sorted m₂) ?_
  intro key
  rw [metaMap_get, metaMap_get, hheaders, hack]

/-! ## One hop -/

/-- The two messages have the same contents. -/
structure SameMessage (i : InboundMessage) (m : OutboundMessage) : Prop where
  srcNode : i.srcNode = m.srcNode
  dstNode : i.dstNode = m.dstNode
  payload : i.payload = m.payload
  headers : ∀ key, i.headers.lookup key = m.headers.lookup key
  corrId : i.corrId = m.corrId
  msgId : i.msgId = m.msgId
  requireAck : i.requireAck = m.requireAck

/-- Messages with the same contents give the same frame. -/
theorem SameMessage.buildDataFrame {i : InboundMessage} {m : OutboundMessage}
    (h : SameMessage i m) (crates : Crates) :
    buildDataFrame crates i.forwarded = buildDataFrame crates m := by
  have hmeta : i.forwarded.metaMap = m.metaMap := metaMap_congr h.headers h.requireAck
  have hfast : i.forwarded.fastHeader = m.fastHeader := by
    unfold OutboundMessage.fastHeader OutboundMessage.frameType InboundMessage.forwarded
    dsimp only
    rw [h.headers, h.srcNode, h.dstNode, h.msgId, h.corrId]
  have hframe : i.forwarded.frame = m.frame := by
    unfold OutboundMessage.frame
    rw [hfast]
    exact funext fun metaRaw => congrArg (Frame.new m.fastHeader metaRaw) h.payload
  rw [buildDataFrame_eq, buildDataFrame_eq, hmeta, hframe]

/-- The headers that are read from a message's metadata: all but the two special
ones. -/
theorem readMeta_lookup {fromReader : Bytes → Option CborValue} {metaRaw : Bytes}
    {m : OutboundMessage} (hparse : parseMeta fromReader metaRaw = .ok m.metaMap) (key : String) :
    (readMeta fromReader metaRaw).1.lookup key
      = if key = "frame_type" ∨ key = "require_ack" then none else m.headers.lookup key := by
  unfold readMeta
  rw [hparse]
  dsimp only
  rw [BTreeMap.lookup_collect keyLt_strictOrder headerOfMeta (metaMap_sorted m), metaMap_get]
  unfold headerOfMeta
  by_cases hack : key = "require_ack"
  · subst hack
    cases m.headers.lookup "require_ack" <;> simp
  · by_cases hft : key = "frame_type"
    · subst hft
      cases m.headers.lookup "frame_type" <;> simp
    · cases m.headers.lookup key with
      | none => simp [hack]
      | some value => simp [hack, hft]

/-- The acknowledgment flag is read back, unless a header has its name. -/
theorem readMeta_requireAck {fromReader : Bytes → Option CborValue} {metaRaw : Bytes}
    {m : OutboundMessage} (hparse : parseMeta fromReader metaRaw = .ok m.metaMap) :
    (readMeta fromReader metaRaw).2
      = (m.requireAck && (m.headers.lookup "require_ack").isNone) := by
  unfold readMeta getMetaStr
  rw [hparse]
  dsimp only
  rw [metaMap_get]
  cases m.headers.lookup "require_ack" with
  | none =>
    cases m.requireAck with
    | false => rfl
    | true => rfl
  | some value => exact (Bool.and_false _).symm

/-- A message without the special headers has its headers and its flag read back. -/
theorem readMeta_metaMap {fromReader : Bytes → Option CborValue} {metaRaw : Bytes}
    {m : OutboundMessage} (hparse : parseMeta fromReader metaRaw = .ok m.metaMap)
    (hframeType : m.headers.lookup "frame_type" = none)
    (hrequireAck : m.headers.lookup "require_ack" = none) :
    (∀ key, (readMeta fromReader metaRaw).1.lookup key = m.headers.lookup key) ∧
      (readMeta fromReader metaRaw).2 = m.requireAck := by
  constructor
  · intro key
    rw [readMeta_lookup hparse]
    split
    next hspecial =>
      rcases hspecial with rfl | rfl
      · exact hframeType.symm
      · exact hrequireAck.symm
    next => rfl
  · rw [readMeta_requireAck hparse, hrequireAck]
    exact Bool.and_true _

/-- The session at the other end makes the same message of the frame. -/
theorem sameMessage_of_frame {fromReader : Bytes → Option CborValue} {metaRaw : Bytes}
    {m : OutboundMessage} (hparse : parseMeta fromReader metaRaw = .ok m.metaMap)
    (hframeType : m.headers.lookup "frame_type" = none)
    (hrequireAck : m.headers.lookup "require_ack" = none) (hmsgId : m.msgId ≠ some 0) :
    SameMessage (inboundOfFrame fromReader (m.frame metaRaw)) m := by
  obtain ⟨hheaders, hack⟩ := readMeta_metaMap hparse hframeType hrequireAck
  refine ⟨rfl, rfl, rfl, hheaders, rfl, ?_, hack⟩
  -- no ID is written as zero, and zero is read as no ID
  show (if m.msgId.getD 0 ≠ 0 then some (m.msgId.getD 0) else none) = m.msgId
  cases hid : m.msgId with
  | none => rfl
  | some n =>
    have hn : n ≠ 0 := by
      intro hzero
      exact hmsgId (hzero ▸ hid)
    exact if_pos hn

/-! ## Any number of hops -/

/-- What a node that forwards makes of the bytes of a frame. -/
def relay (crates : Crates) (fromReader : Bytes → Option CborValue) (bytes : Bytes) :
    Option Bytes :=
  match FrameDecoder.new.decode bytes with
  | (.ok (some frame), _) =>
    match buildDataFrame crates (inboundOfFrame fromReader frame).forwarded with
    | .ok bytes => some bytes
    | .error _ => none
  | _ => none

/-- The bytes after so many hops. -/
def relays (crates : Crates) (fromReader : Bytes → Option CborValue) :
    Nat → Bytes → Option Bytes
  | 0, bytes => some bytes
  | n + 1, bytes => (relay crates fromReader bytes).bind (relays crates fromReader n)

/-- A frame that could be built can be decoded. -/
theorem decode_buildDataFrame {crates : Crates} {m : OutboundMessage} {bytes : Bytes}
    (h : buildDataFrame crates m = .ok bytes) :
    ∃ metaRaw, MetaBuilder.build crates ⟨m.metaMap⟩ = .ok metaRaw ∧
      FrameDecoder.new.decode bytes = (.ok (some (m.frame metaRaw)), []) := by
  rw [buildDataFrame_eq] at h
  cases hbuild : MetaBuilder.build crates ⟨m.metaMap⟩ with
  | error e =>
    rw [hbuild] at h
    exact absurd h (by simp)
  | ok metaRaw =>
    rw [hbuild] at h
    dsimp only at h
    split at h
    next => exact absurd h (by simp)
    next hsize =>
      refine ⟨metaRaw, rfl, ?_⟩
      have hle : (m.frame metaRaw).encodedSize ≤ 65536 := Nat.not_lt.mp hsize
      have hmeta : metaRaw.length ≤ 65536 := by
        have hsum : (m.frame metaRaw).encodedSize = 4 + 48 + 0 + 4 + metaRaw.length
          + m.payload.length := rfl
        omega
      have hshape : (m.frame metaRaw).Shape :=
        ⟨⟨rfl, by show Flags.empty.Defined; decide, rfl, by show (16 : UInt8) ≠ 0; decide⟩, rfl,
          hmeta⟩
      have hdecode := FrameDecoder.decode_bytes_append (d := FrameDecoder.new) hshape
        (Nat.le_trans (Nat.sub_le _ _) (Nat.le_trans hle (by decide)))
        (Nat.lt_of_le_of_lt (Nat.sub_le _ _) (Nat.lt_of_le_of_lt hle (by decide))) []
      rw [List.append_nil] at hdecode
      rw [← Except.ok.inj h]
      exact hdecode

/-- **Messages survive any number of hops unchanged.** The frame of a message
without the two special headers decodes to a DATA frame with the same message;
forwarding it builds the same bytes, at every hop of a path of any length. -/
theorem message_survives_hops {crates : Crates} {fromReader : Bytes → Option CborValue}
    (hread : ReadsBack crates fromReader) {m : OutboundMessage}
    (hframeType : m.headers.lookup "frame_type" = none)
    (hrequireAck : m.headers.lookup "require_ack" = none) (hmsgId : m.msgId ≠ some 0)
    {bytes : Bytes} (hbuild : buildDataFrame crates m = .ok bytes) :
    ∃ frame, FrameDecoder.new.decode bytes = (.ok (some frame), []) ∧ frame.fast.typ = .data ∧
      SameMessage (inboundOfFrame fromReader frame) m ∧
      buildDataFrame crates (inboundOfFrame fromReader frame).forwarded = .ok bytes ∧
      ∀ n, relays crates fromReader n bytes = some bytes := by
  obtain ⟨metaRaw, hmeta, hdecode⟩ := decode_buildDataFrame hbuild
  have hparse : parseMeta fromReader metaRaw = .ok m.metaMap :=
    parseMeta_build hread hmeta (metaMap_plain m) (metaMap_sorted m)
  have hsame := sameMessage_of_frame hparse hframeType hrequireAck hmsgId
  have hagain := (hsame.buildDataFrame crates).trans hbuild
  have hrelay : relay crates fromReader bytes = some bytes := by
    unfold relay
    rw [hdecode]
    dsimp only
    rw [hagain]
  refine ⟨m.frame metaRaw, hdecode, ?_, hsame, hagain, ?_⟩
  · show m.frameType = .data
    unfold OutboundMessage.frameType
    rw [hframeType]
    exact if_neg (by simp)
  · intro n
    induction n with
    | zero => rfl
    | succ n ih =>
      show (relay crates fromReader bytes).bind _ = _
      rw [hrelay]
      exact ih

/-- The crates as they are, on metadata with the one header `k` of one byte. -/
def oneHeaderCrates : Crates where
  intoWriter
    | .map [(.text key, .bytes [b])] =>
      if key = "k" then some (cborEncode (.map [(.text key, .bytes [b])])) else none
    | _ => none
  toVec v := some (cborEncode v)
  crc32 := crc32Ieee

/-- The reader on what these crates write. -/
def oneHeaderReader : Bytes → Option CborValue
  | [0xA1, 0x61, 0x6B, 0x41, b] => some (.map [(.text "k", .bytes [b])])
  | _ => none

theorem oneHeader_encode (b : UInt8) :
    cborEncode (.map [(.text "k", .bytes [b])]) = [0xA1, 0x61, 0x6B, 0x41, b] := by
  simp only [cborEncode, cborEncodeEntries]
  rfl

theorem oneHeader_readsBack : ReadsBack oneHeaderCrates oneHeaderReader := by
  intro entries bytes _ hwrite
  generalize entries.map (fun e => (CborValue.text e.1, e.2)) = pairs at hwrite ⊢
  unfold oneHeaderCrates at hwrite
  dsimp only at hwrite
  split at hwrite
  next key b heq =>
    split at hwrite
    next hkey =>
      subst hkey
      obtain rfl : pairs = _ := CborValue.map.inj heq
      rw [← Option.some.inj hwrite, oneHeader_encode]
      rfl
    next => exact absurd hwrite (by simp)
  next => exact absurd hwrite (by simp)

/-- A message with the header `k`. -/
def greeting : OutboundMessage :=
  { srcNode := 1, dstNode := 3, payload := [104, 105], headers := AList.insert "k" [7] ∅
    corrId := 9, msgId := some 4, requireAck := false }

theorem message_survives_hops_greeting :
    ∃ bytes, buildDataFrame oneHeaderCrates greeting = .ok bytes ∧
      ∀ n, relays oneHeaderCrates oneHeaderReader n bytes = some bytes := by
  obtain ⟨bytes, hbytes⟩ := exists_of_isOk
    (by decide +kernel : (buildDataFrame oneHeaderCrates greeting).isOk = true)
  obtain ⟨_, _, _, _, _, hrelays⟩ := message_survives_hops (m := greeting) oneHeader_readsBack
    rfl rfl (by decide) hbytes
  exact ⟨bytes, hbytes, hrelays⟩

end MeshCore.Session
