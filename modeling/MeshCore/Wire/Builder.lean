import MeshCore.Wire.Decoder
import MeshCore.Wire.Meta
import Mathlib.Data.List.Induction

/-!
# What the builder builds, and what arrives of it

A `FrameBuilder` is a header and a series of calls, in any order (`BuilderCall`).
Whatever the calls are, the header stays valid and its hint length is that of the
hint set last (`Built`), so the frame that arrives is known: it is the one that was
built, except that an empty hint arrives as none (`FrameBuilder.sent`).

The decoder accepts what was built exactly when the metadata is within its limit,
which the builder does not look at (`built_accepted_iff`).
-/

namespace MeshCore.Wire

open MeshCore.Lib

/-! ## The calls -/

/-- A call on a `FrameBuilder`. No field of the `CryptoParams` of `with_crypto` is
read. -/
inductive BuilderCall where
  | withHintTlv (tlv : Bytes)
  | withCrypto
  | metaInsertStr (key value : String)
  | metaInsertU32 (key : String) (value : UInt32)
  | metaInsertBytes (key : String) (value : Bytes)
  | payload (body : Bytes)
  deriving Repr, DecidableEq

namespace BuilderCall

/-- The builder after the call. -/
def apply (b : FrameBuilder) : BuilderCall → FrameBuilder
  | .withHintTlv tlv => b.withHintTlv tlv
  | .withCrypto => b.withCrypto
  | .metaInsertStr key value => b.metaInsertStr key value
  | .metaInsertU32 key value => b.metaInsertU32 key value
  | .metaInsertBytes key value => b.metaInsertBytes key value
  | .payload body => b.payload body

/-- The metadata that the call inserts. -/
def inserted : BuilderCall → Option (String × CborValue)
  | .metaInsertStr key value => some (key, .text value)
  | .metaInsertU32 key value => some (key, .integer value.toNat)
  | .metaInsertBytes key value => some (key, .bytes value)
  | _ => none

/-- The payload that the call sets. -/
def payload? : BuilderCall → Option Bytes
  | .payload body => some body
  | _ => none

end BuilderCall

/-- The builder after the calls. -/
def builderOf (fast : FastHeader) (calls : List BuilderCall) : FrameBuilder :=
  calls.foldl BuilderCall.apply (.new fast)

/-- The payload set last; none was set, it is empty. -/
def lastPayload (calls : List BuilderCall) : Bytes :=
  ((calls.filterMap BuilderCall.payload?).getLast?).getD []

/-- The metadata of the calls: under each key the value inserted last. -/
def metadataOf (calls : List BuilderCall) : MetaBuilder :=
  (calls.filterMap BuilderCall.inserted).foldl (fun m e => m.insert e.1 e.2) .new

/-- The metadata of the calls as it is written. -/
def metadataValue (calls : List BuilderCall) : CborValue :=
  .map ((metadataOf calls).map.map fun e => (.text e.1, e.2))

/-! ## What every series of calls keeps -/

/-- A value that can be inserted: a text, a `u32` or a byte string. -/
def CborValue.Inserted : CborValue → Prop
  | .text _ => True
  | .integer i => 0 ≤ i ∧ i < 2 ^ 32
  | .bytes _ => True
  | _ => False

/-- What holds of a builder after any calls. -/
structure Built (b : FrameBuilder) : Prop where
  fast : b.fast.WellFormed
  hintLen : b.fast.hdrHintLen = UInt32.ofNat (b.hintTlv.getD []).length
  sorted : b.metadata.map.Sorted keyLt
  inserted : ∀ e ∈ b.metadata.map, e.2.Inserted

theorem Built.insert {b : FrameBuilder} (h : Built b) (key : String) {value : CborValue}
    (hv : value.Inserted) : Built { b with metadata := b.metadata.insert key value } where
  fast := h.fast
  hintLen := h.hintLen
  sorted := h.sorted.insert keyLt_strictOrder key value
  inserted := by
    intro e he
    rcases BTreeMap.mem_insert he with rfl | hold
    · exact hv
    · exact h.inserted e hold

theorem u32_inserted (n : UInt32) : (CborValue.integer n.toNat).Inserted :=
  ⟨Int.natCast_nonneg _, by exact_mod_cast n.toNat_lt⟩

/-- Every call keeps it. -/
theorem Built.apply {b : FrameBuilder} (h : Built b) (call : BuilderCall) :
    Built (call.apply b) := by
  cases call with
  | withHintTlv tlv =>
    exact ⟨⟨h.fast.ver, h.fast.flags, h.fast.reserved0, h.fast.ttl⟩, rfl, h.sorted, h.inserted⟩
  | withCrypto =>
    have hflags : (b.fast.flags.union .e2eEnc).Defined := h.fast.flags.union (by decide)
    exact ⟨⟨h.fast.ver, hflags, h.fast.reserved0, h.fast.ttl⟩, h.hintLen, h.sorted, h.inserted⟩
  | metaInsertStr key value => exact h.insert key trivial
  | metaInsertU32 key value => exact h.insert key (u32_inserted value)
  | metaInsertBytes key value => exact h.insert key trivial
  | payload body => exact ⟨h.fast, h.hintLen, h.sorted, h.inserted⟩

theorem built_builderOf {fast : FastHeader} (hfast : fast.WellFormed) (hhint : fast.hdrHintLen = 0)
    (calls : List BuilderCall) : Built (builderOf fast calls) :=
  List.foldlRecOn calls BuilderCall.apply
    ⟨hfast, hhint, List.Pairwise.nil, fun _ he => absurd he List.not_mem_nil⟩
    fun _ h call _ => h.apply call

/-- A flag that is set in the header stays set. -/
theorem flags_builderOf (fast : FastHeader) (flag : Flags) (h : fast.flags.contains flag = true)
    (calls : List BuilderCall) : (builderOf fast calls).fast.flags.contains flag = true := by
  refine List.foldlRecOn (motive := fun b => b.fast.flags.contains flag = true) calls
    BuilderCall.apply (b := .new fast) h fun b hb call _ => ?_
  cases call with
  | withCrypto => exact Flags.contains_union_left _ hb
  | _ => exact hb

/-- A flag other than that of encryption is not set by the calls. -/
theorem flags_builderOf_unset (fast : FastHeader) (flag : Flags)
    (h : fast.flags.contains flag = false) (hflag : Flags.e2eEnc.bits &&& flag.bits = 0)
    (calls : List BuilderCall) : (builderOf fast calls).fast.flags.contains flag = false := by
  refine List.foldlRecOn (motive := fun b => b.fast.flags.contains flag = false) calls
    BuilderCall.apply (b := .new fast) h fun b hb call _ => ?_
  cases call with
  | withCrypto => exact (Flags.contains_union_of_disjoint hflag).trans hb
  | _ => exact hb

/-- The payload set last is what the builder has, and so is the metadata. -/
theorem builderOf_contents (fast : FastHeader) (calls : List BuilderCall) :
    (builderOf fast calls).body = lastPayload calls ∧
      (builderOf fast calls).metadata = metadataOf calls := by
  induction calls using List.reverseRecOn with
  | nil => exact ⟨rfl, rfl⟩
  | append_singleton calls call ih =>
    unfold builderOf lastPayload metadataOf at ih ⊢
    rw [List.foldl_append, List.filterMap_append, List.filterMap_append, List.foldl_append,
      ← ih.2]
    generalize calls.foldl BuilderCall.apply (.new fast) = b at ih ⊢
    cases call with
    | payload body =>
      have hlast : (calls.filterMap BuilderCall.payload? ++ [body]).getLast? = some body :=
        List.getLast?_concat
      exact ⟨(congrArg (fun last => last.getD []) hlast).symm, rfl⟩
    | _ =>
      have hsame := congrArg (fun l => l.getLast?.getD []) (List.append_nil
        (calls.filterMap BuilderCall.payload?))
      exact ⟨ih.1.trans hsame.symm, rfl⟩

/-! ## The frame that arrives -/

namespace FrameBuilder

/-- The frame of the builder as it arrives: an empty hint is none. -/
def sent (b : FrameBuilder) (metaRaw : Bytes) : Frame :=
  { fast := b.fast, hint := b.hintTlv.filter fun hint => hint ≠ [], metaRaw
    payloadOrCipher := b.body }

theorem sent_hint_getD (b : FrameBuilder) (metaRaw : Bytes) :
    (b.sent metaRaw).hint.getD [] = b.hintTlv.getD [] := by
  unfold sent
  cases b.hintTlv with
  | none => rfl
  | some hint =>
    by_cases h : hint = []
    · rw [h]
      rfl
    · rw [Option.filter_some, if_pos (by simpa using h)]

/-- The bytes are those of the frame that was built. -/
theorem sent_bytes (b : FrameBuilder) (metaRaw : Bytes) :
    (b.sent metaRaw).bytes = (b.frame metaRaw b.body).bytes := by
  have hframe : b.frame metaRaw b.body
      = { fast := b.fast, hint := b.hintTlv, metaRaw, payloadOrCipher := b.body } := by
    unfold frame
    cases b.hintTlv <;> rfl
  have hbody : (b.sent metaRaw).body = (b.frame metaRaw b.body).body := by
    rw [hframe]
    unfold Frame.body
    rw [sent_hint_getD]
    rfl
  have hsize : (b.sent metaRaw).encodedSize - 4 = (b.frame metaRaw b.body).encodedSize - 4 := by
    rw [← Frame.body_length, ← Frame.body_length, hbody]
  unfold Frame.bytes
  rw [hbody, hsize]

/-- What `build` returns, if it returns bytes. -/
theorem build_eq_ok {crates : Crates} {b : FrameBuilder} {maxFrame : Nat} {bytes : Bytes}
    (h : b.build crates maxFrame = .ok bytes) :
    ∃ metaRaw, (b.finalMeta crates).build crates = .ok metaRaw ∧
      bytes = (b.sent metaRaw).bytes ∧ bytes.length ≤ maxFrame := by
  rw [build_eq] at h
  cases hm : (b.finalMeta crates).build crates with
  | error e =>
    rw [hm] at h
    exact absurd h (by simp)
  | ok metaRaw =>
    rw [hm] at h
    dsimp only at h
    split at h
    next => exact absurd h (by simp)
    next hsize =>
      obtain rfl := Except.ok.inj h
      refine ⟨metaRaw, rfl, (sent_bytes b metaRaw).symm, ?_⟩
      rw [Frame.bytes_length]
      exact Nat.le_of_not_lt hsize

end FrameBuilder

/-- What arrives is a frame with a valid header and the hint that goes with it, if its
length fits the length field. -/
theorem Built.framed {b : FrameBuilder} (h : Built b) {metaRaw : Bytes}
    (h32 : (b.sent metaRaw).bytes.length - 4 < 2 ^ 32) : (b.sent metaRaw).Framed := by
  rw [Frame.bytes_length] at h32
  refine ⟨h.fast, ?_, h32⟩
  have hlen : (b.hintTlv.getD []).length < 2 ^ 32 := by
    have hbody := (b.sent metaRaw).body_length
    unfold Frame.body at hbody
    rw [FrameBuilder.sent_hint_getD, List.length_append, List.length_append] at hbody
    omega
  have htoNat : b.fast.hdrHintLen.toNat = (b.hintTlv.getD []).length := by
    rw [h.hintLen]
    exact UInt32.toNat_ofNat_of_lt' hlen
  show Frame.HintMatches b.fast.hdrHintLen (b.hintTlv.filter fun hint => hint ≠ [])
  cases htlv : b.hintTlv with
  | none =>
    rw [htlv] at htoNat
    exact UInt32.toNat.inj htoNat
  | some hint =>
    rw [htlv, Option.getD_some] at htoNat
    by_cases hnil : hint = []
    · rw [hnil] at htoNat ⊢
      exact UInt32.toNat.inj htoNat
    · rw [Option.filter_some, if_pos (by simpa using hnil)]
      exact ⟨List.length_pos_iff.mpr hnil, htoNat.symm⟩

/-! ## What the decoder accepts -/

theorem fastHeader_new_wellFormed (typ : FrameType) (srcNode dstNode msgId : UInt64) :
    (FastHeader.new typ srcNode dstNode msgId).WellFormed :=
  ⟨rfl, by show Flags.empty.Defined; decide, rfl, by show (16 : UInt8) ≠ 0; decide⟩

/-- **What was built from a fresh header, and what arrives of it.** Without the checksum
flag the metadata is what was inserted. -/
theorem builderOf_arrives {crates : Crates} {typ : FrameType} {srcNode dstNode msgId : UInt64}
    {calls : List BuilderCall} {maxFrame : Nat} (hmax : maxFrame ≤ defaultMaxFrameSize)
    {bytes : Bytes}
    (hbuild : (builderOf (.new typ srcNode dstNode msgId) calls).build crates maxFrame
      = .ok bytes) :
    ∃ f : Frame, (metadataOf calls).build crates = .ok f.metaRaw ∧
      f.payloadOrCipher = lastPayload calls ∧
      ∀ g rest, FrameDecoder.new.decode bytes = (.ok (some g), rest)
        ↔ g = f ∧ rest = [] ∧ f.metaRaw.length ≤ maxMetaSize := by
  obtain ⟨metaRaw, hmeta, rfl, hlen⟩ := FrameBuilder.build_eq_ok hbuild
  obtain ⟨hbody, hmetadata⟩ := builderOf_contents (.new typ srcNode dstNode msgId) calls
  have hunset := flags_builderOf_unset (.new typ srcNode dstNode msgId) .hdrChecksum
    (by show Flags.empty.contains _ = false; decide) (by decide) calls
  have hbuilt := built_builderOf (fastHeader_new_wellFormed typ srcNode dstNode msgId) rfl calls
  generalize builderOf (.new typ srcNode dstNode msgId) calls = b at *
  have hfinal : b.finalMeta crates = metadataOf calls := by
    unfold FrameBuilder.finalMeta
    rw [hunset]
    exact hmetadata
  rw [hfinal] at hmeta
  have hsmall : (b.sent metaRaw).bytes.length ≤ defaultMaxFrameSize := Nat.le_trans hlen hmax
  have hframed := hbuilt.framed (Nat.lt_of_le_of_lt (Nat.sub_le ..)
    (Nat.lt_of_le_of_lt hsmall (by decide)))
  rw [Frame.bytes_length] at hsmall
  refine ⟨b.sent metaRaw, hmeta, hbody, fun g rest => ?_⟩
  rw [FrameDecoder.decode_bytes_iff hframed]
  have hfits : (b.sent metaRaw).encodedSize - 4 ≤ FrameDecoder.new.maxFrameSize :=
    Nat.le_trans (Nat.sub_le ..) hsmall
  simp only [hfits, and_true]

/-- **When the decoder accepts what the builder built.** Whatever calls were made, the
frame decodes with the payload set last and the bytes of the metadata if and only if
the CBOR of the inserted metadata has at most `MAX_META_SIZE` bytes. -/
theorem built_accepted_iff (crates : Crates) (typ : FrameType) (srcNode dstNode msgId : UInt64)
    (calls : List BuilderCall) (maxFrame : Nat) (hmax : maxFrame ≤ defaultMaxFrameSize)
    (bytes : Bytes)
    (hbuild : (builderOf (.new typ srcNode dstNode msgId) calls).build crates maxFrame
      = .ok bytes) :
    (∃ f, (FrameDecoder.new.decode bytes).1 = .ok (some f) ∧
      f.payloadOrCipher = lastPayload calls ∧
      (metadataOf calls).build crates = .ok f.metaRaw) ↔
    ∀ cbor, crates.intoWriter (metadataValue calls) = some cbor → cbor.length ≤ maxMetaSize := by
  obtain ⟨f, hmeta, hbody, hdecode⟩ := builderOf_arrives hmax hbuild
  have hwrite : crates.intoWriter (metadataValue calls) = some f.metaRaw :=
    MetaBuilder.build_eq_ok hmeta
  constructor
  · rintro ⟨g, hg, -, -⟩ cbor hcbor
    obtain ⟨-, -, hle⟩ := (hdecode g _).mp (Prod.ext hg rfl)
    rw [hwrite] at hcbor
    exact Option.some.inj hcbor ▸ hle
  · intro hle
    refine ⟨f, ?_, hbody, hmeta⟩
    rw [(hdecode f []).mpr ⟨rfl, rfl, hle f.metaRaw hwrite⟩]

/-- Two hints, the second empty, and two payloads. -/
theorem built_accepted_iff_hints :
    let calls := [.withHintTlv [1, 2], .metaInsertStr "k" "v", .payload [7], .withHintTlv [],
      .withCrypto, .payload [8]]
    ∃ bytes, (builderOf (.new .data 1 9 7) calls).build .standard 65536 = .ok bytes ∧
      ((∃ f, (FrameDecoder.new.decode bytes).1 = .ok (some f) ∧ f.payloadOrCipher = [8] ∧
        (metadataOf calls).build .standard = .ok f.metaRaw) ↔
      ∀ cbor, Crates.standard.intoWriter (metadataValue calls) = some cbor →
        cbor.length ≤ maxMetaSize) := by
  intro calls
  obtain ⟨bytes, hbuild⟩ := exists_of_isOk (by decide +kernel :
    ((builderOf (.new .data 1 9 7) calls).build .standard 65536).isOk = true)
  exact ⟨bytes, hbuild, built_accepted_iff .standard .data 1 9 7 calls 65536 (by decide) bytes
    hbuild⟩

/-- One metadata value of 65536 bytes: the builder builds the frame, and the decoder
refuses it. -/
theorem large_metadata_refused :
    ¬ ∀ (typ : FrameType) (srcNode dstNode msgId : UInt64) (calls : List BuilderCall)
      (maxFrame : Nat) (bytes : Bytes), maxFrame ≤ defaultMaxFrameSize →
      (builderOf (.new typ srcNode dstNode msgId) calls).build .standard maxFrame = .ok bytes →
      ∃ f, (FrameDecoder.new.decode bytes).1 = .ok (some f) ∧
        f.payloadOrCipher = lastPayload calls ∧
        (metadataOf calls).build .standard = .ok f.metaRaw := by
  intro h
  obtain ⟨value, hvalue⟩ : ∃ value : Bytes, value.length = 65536 :=
    ⟨List.replicate 65536 0, List.length_replicate⟩
  let calls : List BuilderCall := [.metaInsertBytes "k" value]
  have hmeta : (metadataOf calls).build .standard = .ok (cborEncode (metadataValue calls)) := rfl
  have hlen : (cborEncode (metadataValue calls)).length = 65544 := by
    rw [show metadataValue calls = .map [(.text "k", .bytes value)] from rfl]
    simp only [cborEncode, cborEncodeEntries, List.length_append, hvalue, List.length_nil,
      List.length_singleton]
    decide +kernel
  have hbuild : (builderOf (.new .data 1 9 7) calls).build .standard defaultMaxFrameSize
      = .ok ((builderOf (.new .data 1 9 7) calls).frame
          (cborEncode (metadataValue calls)) []).bytes := by
    have hfinal : (builderOf (.new .data 1 9 7) calls).finalMeta .standard = metadataOf calls := by
      unfold FrameBuilder.finalMeta
      rw [show (builderOf (.new .data 1 9 7) calls).fast.flags = Flags.empty from rfl]
      rfl
    rw [FrameBuilder.build_eq, hfinal, hmeta]
    refine if_neg (Nat.not_lt.mpr ?_)
    show 4 + fastHeaderSize + 0 + 4 + (cborEncode (metadataValue calls)).length + 0 ≤ _
    rw [hlen]
    decide
  obtain ⟨f, hdecode, -, hmetaRaw⟩ := h .data 1 9 7 calls _ _ (Nat.le_refl _) hbuild
  obtain ⟨-, hshape, -, -⟩ := FrameDecoder.decode_eq_some.mp (Prod.ext hdecode rfl)
  have hle := hshape.metaRaw
  rw [← Except.ok.inj (hmeta.symm.trans hmetaRaw), hlen] at hle
  exact absurd hle (by decide)

end MeshCore.Wire
