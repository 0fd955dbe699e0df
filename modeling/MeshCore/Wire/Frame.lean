import MeshCore.Wire.Header
import MeshCore.Lib.Framing

/-!
# Frames and the frame decoder (`mesh-wire/src/frame.rs`)

A frame on the wire is a `u32` length, the fast header, an optional hint whose
length is a header field, a `u32` metadata length, the metadata, and the
payload up to the end of the frame.

`decode_eq_some` says exactly when `FrameDecoder::decode` returns a frame: the
buffer starts with that frame's bytes, the frame is of the shape the decoder
demands, and its length is within the decoder's limit. From it come both
directions of the round trip, `encode_of_decode` and the instance `framing` of
the stream library, which turns the single-frame facts into the statement about
every segmentation of a stream of frames.

Mirroring notes:
- The decoder takes the buffer by `&mut`, so `decode` returns the buffer as it
  is left, also when it fails.
- `total_size - 4` and `meta_raw.len()` are cut to 32 bits by the `as u32`
  casts of `encode`; `UInt32.ofNat` does the same.
-/

namespace MeshCore.Wire

open MeshCore.Lib

/-- `DEFAULT_MAX_FRAME_SIZE`: 16 MiB. -/
def defaultMaxFrameSize : Nat := 16 * 1024 * 1024

/-- `MAX_META_SIZE`: 64 KiB. -/
def maxMetaSize : Nat := 64 * 1024

/-- `Frame`. -/
structure Frame where
  fast : FastHeader
  hint : Option Bytes
  metaRaw : Bytes
  payloadOrCipher : Bytes
  deriving Repr, DecidableEq

namespace Frame

/-- `Frame::new`. -/
def new (fast : FastHeader) (metaRaw payloadOrCipher : Bytes) : Frame :=
  { fast, hint := none, metaRaw, payloadOrCipher }

/-- `Frame::with_hint`. -/
def withHint (f : Frame) (hint : Bytes) : Frame := { f with hint := some hint }

/-- `Frame::encoded_size`. -/
def encodedSize (f : Frame) : Nat :=
  4 + fastHeaderSize
    + (match f.hint with
      | some hint => hint.length
      | none => 0)
    + 4 + f.metaRaw.length + f.payloadOrCipher.length

/-- Everything after the length field. -/
def body (f : Frame) : Bytes :=
  f.fast.encode ++ (f.hint.getD [] ++ (putU32 (UInt32.ofNat f.metaRaw.length) ++
    (f.metaRaw ++ f.payloadOrCipher)))

/-- The bytes of a frame, whatever their number. -/
def bytes (f : Frame) : Bytes := putU32 (UInt32.ofNat (f.encodedSize - 4)) ++ f.body

/-- `Frame::encode`. -/
def encode (f : Frame) (maxFrameSize : Nat) : Except WireError Bytes :=
  if f.encodedSize > maxFrameSize then .error (.size f.encodedSize) else .ok f.bytes

/-- The hint goes with the length the header announces for it. -/
def HintMatches (hintLen : UInt32) : Option Bytes → Prop
  | some hint => 0 < hint.length ∧ hint.length = hintLen.toNat
  | none => hintLen = 0

instance (n : UInt32) : ∀ o : Option Bytes, Decidable (HintMatches n o)
  | some _ => inferInstanceAs (Decidable (_ ∧ _))
  | none => inferInstanceAs (Decidable (_ = _))

/-- The shape the decoder demands of a frame, its total length apart. -/
structure Shape (f : Frame) : Prop where
  fast : f.fast.WellFormed
  hint : HintMatches f.fast.hdrHintLen f.hint
  metaRaw : f.metaRaw.length ≤ maxMetaSize

/-- A frame that every node can decode: of the right shape, and within the
default frame size. -/
structure WellFormed (f : Frame) : Prop extends Shape f where
  size : f.encodedSize ≤ defaultMaxFrameSize

theorem body_length (f : Frame) : f.body.length = f.encodedSize - 4 := by
  have hh : (f.hint.getD []).length
      = (match f.hint with | some hint => hint.length | none => 0) := by
    cases f.hint <;> rfl
  simp only [body, encodedSize, List.length_append, FastHeader.encode_length, putU32_length, hh]
  omega

theorem bytes_length (f : Frame) : f.bytes.length = f.encodedSize := by
  rw [bytes, List.length_append, putU32_length, body_length, encodedSize]
  omega

theorem bytes_ne_nil (f : Frame) : f.bytes ≠ [] := by
  intro h
  have := congrArg List.length h
  rw [bytes_length, encodedSize, List.length_nil] at this
  omega

/-- A frame that fits the limit is encoded as its bytes. -/
theorem encode_eq_ok {f : Frame} {maxFrameSize : Nat} (h : f.encodedSize ≤ maxFrameSize) :
    f.encode maxFrameSize = .ok f.bytes := by
  rw [encode, if_neg (by omega)]

end Frame

/-! ## Decoding one frame -/

/-- The optional hint behind the header. -/
def readHint (hintLen : UInt32) : Buf (Option Bytes) :=
  if hintLen > 0 then do
    let buf ← get
    failIf (buf.length < hintLen.toNat) .malformed
    let hint ← splitTo hintLen.toNat
    return some hint
  else return none

/-- The part of `FrameDecoder::decode` that works on the frame's own bytes. -/
def decodeFrame : Buf Frame := do
  let fast ← FastHeader.decode
  let hint ← readHint fast.hdrHintLen
  let buf ← get
  failIf (buf.length < 4) .malformed
  let metaLen ← getU32
  let buf ← get
  failIf (metaLen.toNat > maxMetaSize ∨ buf.length < metaLen.toNat) .badMeta
  let metaRaw ← splitTo metaLen.toNat
  let payloadOrCipher ← get
  return { fast, hint, metaRaw, payloadOrCipher }

/-- `FrameDecoder`. -/
structure FrameDecoder where
  maxFrameSize : Nat

/-- `FrameDecoder::new`. -/
def FrameDecoder.new : FrameDecoder := ⟨defaultMaxFrameSize⟩

/-- `FrameDecoder::decode`: the outcome, and the buffer as it is left. -/
def FrameDecoder.decode (d : FrameDecoder) (buf : Bytes) :
    Except Fault (Option Frame) × Bytes :=
  if buf.length < 4 then (.ok none, buf)
  else
    -- `rest` is the buffer after `advance(4)`; until then the length is only peeked at
    match getU32 buf with
    | .error e => (.error e, buf)
    | .ok (frameLen, rest) =>
      -- a length beyond the limit is an error before the frame has arrived, and stays one
      if frameLen.toNat > d.maxFrameSize then (.error (.wire (.size frameLen.toNat)), buf)
      else if buf.length < 4 + frameLen.toNat then (.ok none, buf)
      else
        match splitTo frameLen.toNat rest with
        | .error e => (.error e, rest)
        | .ok (frameBuf, rest) =>
          match decodeFrame frameBuf with
          | .error e => (.error e, rest)
          | .ok (frame, _) => (.ok (some frame), rest)

theorem readHint_eq_ok {hintLen : UInt32} {buf rest : Bytes} {hint : Option Bytes} :
    readHint hintLen buf = .ok (hint, rest) ↔
      Frame.HintMatches hintLen hint ∧ buf = hint.getD [] ++ rest := by
  unfold readHint
  by_cases hpos : hintLen > 0
  · have hpos' : 0 < hintLen.toNat := UInt32.lt_iff_toNat_lt.mp hpos
    rw [if_pos hpos]
    simp only [bind_eq_ok, get_eq_ok, failIf_eq_ok, splitTo_eq_ok, pure_eq_ok]
    refine ⟨?_, ?_⟩
    · intro h
      obtain ⟨_, _, ⟨rfl, rfl⟩, _, _, ⟨-, rfl⟩, front, _, ⟨rfl, hlen⟩, rfl, rfl⟩ := h
      exact ⟨⟨by omega, hlen⟩, rfl⟩
    · intro h
      obtain ⟨hm, rfl⟩ := h
      cases hint with
      | none =>
        exact absurd (show hintLen = 0 from hm) (fun h0 => by rw [h0] at hpos'; simp at hpos')
      | some front =>
        have hlen : front.length = hintLen.toNat := hm.2
        refine ⟨_, _, ⟨rfl, rfl⟩, (), _, ⟨?_, rfl⟩, front, rest, ⟨rfl, hlen⟩, rfl, rfl⟩
        show ¬ (front ++ rest).length < hintLen.toNat
        rw [List.length_append]
        omega
  · have hzero : hintLen = 0 := by
      apply UInt32.toNat_inj.mp
      have := mt UInt32.lt_iff_toNat_lt.mpr hpos
      simpa using this
    rw [if_neg hpos, pure_eq_ok]
    refine ⟨?_, ?_⟩
    · intro h
      obtain ⟨rfl, rfl⟩ := h
      exact ⟨hzero, rfl⟩
    · intro h
      obtain ⟨hm, rfl⟩ := h
      cases hint with
      | none => exact ⟨rfl, rfl⟩
      | some front =>
        have h1 : 0 < front.length := hm.1
        have h2 : front.length = hintLen.toNat := hm.2
        rw [hzero] at h2
        exact absurd h2 (by simpa using Nat.pos_iff_ne_zero.mp h1)

/-- **What a frame buffer decodes to.** `decodeFrame` accepts exactly the bodies
of frames of the right shape. -/
theorem decodeFrame_eq_ok {buf rest : Bytes} {f : Frame} :
    decodeFrame buf = .ok (f, rest) ↔ buf = f.body ∧ f.Shape ∧ rest = f.payloadOrCipher := by
  unfold decodeFrame
  simp only [bind_eq_ok, get_eq_ok, failIf_eq_ok, splitTo_eq_ok, pure_eq_ok, getU32_eq_ok,
    FastHeader.decode_eq_ok, readHint_eq_ok]
  refine ⟨?_, ?_⟩
  · intro h
    obtain ⟨fast, _, ⟨rfl, hfast⟩, hint, _, ⟨hhint, rfl⟩, _, _, ⟨rfl, rfl⟩, _, _, ⟨-, rfl⟩,
      metaLen, _, rfl, _, _, ⟨rfl, rfl⟩, _, _, ⟨hmeta, rfl⟩, metaRaw, _, ⟨rfl, hlen⟩, _, _,
      ⟨rfl, rfl⟩, rfl, rfl⟩ := h
    refine ⟨?_, ⟨hfast, hhint, ?_⟩, rfl⟩
    · rw [Frame.body, hlen, UInt32.ofNat_toNat]
    · show metaRaw.length ≤ maxMetaSize
      omega
  · intro h
    obtain ⟨rfl, ⟨hfast, hhint, hmeta⟩, rfl⟩ := h
    -- `maxMetaSize` keeps the metadata length within 32 bits
    have hlen : (UInt32.ofNat f.metaRaw.length).toNat = f.metaRaw.length :=
      UInt32.toNat_ofNat_of_lt' (Nat.lt_of_le_of_lt hmeta (by decide))
    refine ⟨f.fast, _, ⟨rfl, hfast⟩, f.hint, _, ⟨hhint, rfl⟩, _, _, ⟨rfl, rfl⟩, (), _, ⟨?_, rfl⟩,
      UInt32.ofNat f.metaRaw.length, _, rfl, _, _, ⟨rfl, rfl⟩, (), _, ⟨?_, rfl⟩, f.metaRaw, _,
      ⟨rfl, hlen.symm⟩, _, _, ⟨rfl, rfl⟩, rfl, rfl⟩
    · rw [List.length_append, putU32_length]
      omega
    · rw [hlen, List.length_append]
      omega

/-! ## Decoding from a buffer -/

/-- The length field of a frame that fits 32 bits. -/
theorem Frame.toNat_lenField {f : Frame} (h : f.encodedSize - 4 < 2 ^ 32) :
    (UInt32.ofNat (f.encodedSize - 4)).toNat = f.encodedSize - 4 :=
  UInt32.toNat_ofNat_of_lt' h

theorem getU32_bytes_append (f : Frame) (rest : Bytes) :
    getU32 (f.bytes ++ rest) = .ok (UInt32.ofNat (f.encodedSize - 4), f.body ++ rest) :=
  getU32_eq_ok.mpr (by rw [Frame.bytes, List.append_assoc])

/-- A frame in front of the buffer is decoded and consumed. -/
theorem FrameDecoder.decode_bytes_append {d : FrameDecoder} {f : Frame} (hs : f.Shape)
    (hmax : f.encodedSize - 4 ≤ d.maxFrameSize) (h32 : f.encodedSize - 4 < 2 ^ 32)
    (rest : Bytes) : d.decode (f.bytes ++ rest) = (.ok (some f), rest) := by
  have hlen : (f.bytes ++ rest).length = f.encodedSize + rest.length := by
    rw [List.length_append, Frame.bytes_length]
  have hge : 4 ≤ f.encodedSize := by rw [Frame.encodedSize]; omega
  have hsplit : splitTo (f.encodedSize - 4) (f.body ++ rest) = .ok (f.body, rest) :=
    splitTo_eq_ok.mpr ⟨rfl, f.body_length⟩
  unfold FrameDecoder.decode
  rw [if_neg (by omega), getU32_bytes_append]
  dsimp only
  rw [Frame.toNat_lenField h32, if_neg (by omega), if_neg (by omega), hsplit]
  dsimp only
  rw [decodeFrame_eq_ok.mpr ⟨rfl, hs, rfl⟩]

/-- A proper part of a frame's bytes makes the decoder ask for more and leave
the buffer alone. -/
theorem FrameDecoder.decode_partial {d : FrameDecoder} {f : Frame} {p q : Bytes}
    (hmax : f.encodedSize - 4 ≤ d.maxFrameSize) (h32 : f.encodedSize - 4 < 2 ^ 32)
    (hpq : f.bytes = p ++ q) (hq : q ≠ []) : d.decode p = (.ok none, p) := by
  have hlen : p.length + q.length = f.encodedSize := by
    rw [← Frame.bytes_length, hpq, List.length_append]
  have hqpos : 0 < q.length := List.length_pos_iff.mpr hq
  unfold FrameDecoder.decode
  by_cases h4 : p.length < 4
  · rw [if_pos h4]
  · -- the length field has arrived, the rest of the frame has not
    have hread : ∃ p', getU32 p = .ok (UInt32.ofNat (f.encodedSize - 4), p') := by
      rw [Frame.bytes] at hpq
      rcases List.append_eq_append_iff.mp hpq with ⟨p', hp, -⟩ | ⟨q', hlf, -⟩
      · exact ⟨p', getU32_eq_ok.mpr hp⟩
      · have := congrArg List.length hlf
        rw [putU32_length, List.length_append] at this
        have hq' : q' = [] := List.eq_nil_of_length_eq_zero (by omega)
        exact ⟨[], getU32_eq_ok.mpr (by rw [hlf, hq', List.append_nil, List.append_nil])⟩
    obtain ⟨p', hread⟩ := hread
    rw [if_neg h4, hread]
    dsimp only
    rw [Frame.toNat_lenField h32, if_neg (by omega), if_pos (by omega)]

/-- **When the decoder returns a frame.** The buffer starts with the frame's
bytes, the frame has the right shape, and its length is within the limit. -/
theorem FrameDecoder.decode_eq_some {d : FrameDecoder} {buf rest : Bytes} {f : Frame} :
    d.decode buf = (.ok (some f), rest) ↔
      buf = f.bytes ++ rest ∧ f.Shape ∧ f.encodedSize - 4 ≤ d.maxFrameSize ∧
        f.encodedSize - 4 < 2 ^ 32 := by
  refine ⟨?_, fun h => by rw [h.1]; exact decode_bytes_append h.2.1 h.2.2.1 h.2.2.2 rest⟩
  intro h
  -- of all branches only the last returns a frame
  unfold FrameDecoder.decode at h
  split at h
  next => simp at h
  next =>
    split at h
    next => simp at h
    next frameLen rest₁ hread =>
      split at h
      next => simp at h
      next hmax =>
        split at h
        next => simp at h
        next =>
          split at h
          next => simp at h
          next frameBuf rest₂ hsplit =>
            split at h
            next => simp at h
            next frame left hframe =>
              obtain ⟨hf, hr⟩ := Prod.mk.inj h
              have hf' : frame = f := Option.some.inj (Except.ok.inj hf)
              subst hf' hr
              obtain ⟨hbody, hs, -⟩ := decodeFrame_eq_ok.mp hframe
              obtain ⟨hrest, hlen⟩ := splitTo_eq_ok.mp hsplit
              have hfl : frameLen.toNat = frame.encodedSize - 4 := by
                rw [← hlen, hbody, Frame.body_length]
              refine ⟨?_, hs, by omega, hfl ▸ frameLen.toNat_lt⟩
              rw [getU32_eq_ok.mp hread, hrest, hbody, Frame.bytes, ← hfl, UInt32.ofNat_toNat,
                List.append_assoc]

/-- What was decoded encodes back to the consumed bytes. -/
theorem FrameDecoder.encode_of_decode {d : FrameDecoder} {buf consumed rest : Bytes} {f : Frame}
    (h : d.decode buf = (.ok (some f), rest)) (hb : buf = consumed ++ rest)
    {maxFrameSize : Nat} (hmax : consumed.length ≤ maxFrameSize) :
    f.encode maxFrameSize = .ok consumed := by
  obtain ⟨hbuf, -, -, -⟩ := decode_eq_some.mp h
  have hc : consumed = f.bytes := List.append_cancel_right (hb.symm.trans hbuf)
  rw [hc, Frame.bytes_length] at hmax
  rw [hc]
  exact Frame.encode_eq_ok hmax

/-! ## Streams of frames -/

theorem Frame.WellFormed.fits32 {f : Frame} (h : f.WellFormed) : f.encodedSize - 4 < 2 ^ 32 :=
  Nat.lt_of_le_of_lt (Nat.le_trans (Nat.sub_le _ _) h.size) (by decide)

/-- The default decoder and `Frame::encode` are a framing of well-formed frames. -/
def framing : Framing UInt8 Frame Fault where
  decode := FrameDecoder.new.decode
  encode := Frame.bytes
  Good := Frame.WellFormed
  decode_nil := rfl
  decode_encode := fun _ rest h =>
    FrameDecoder.decode_bytes_append h.toShape (Nat.le_trans (Nat.sub_le _ _) h.size) h.fits32 rest
  decode_partial := fun _ _ _ h hpq hq =>
    FrameDecoder.decode_partial (Nat.le_trans (Nat.sub_le _ _) h.size) h.fits32 hpq hq
  encode_ne_nil := fun f _ => f.bytes_ne_nil

/-- `Frame::encode` succeeds on a list of well-formed frames, and gives their bytes. -/
theorem mapM_encode {frames : List Frame} (h : ∀ f ∈ frames, f.WellFormed) :
    frames.mapM (fun f => f.encode defaultMaxFrameSize) = .ok (frames.map Frame.bytes) := by
  induction frames with
  | nil => rfl
  | cons f fs ih =>
    rw [List.mapM_cons, Frame.encode_eq_ok (h f (List.mem_cons_self ..)).size,
      ih (fun g hg => h g (List.mem_cons_of_mem _ hg))]
    rfl

/-- **The codec round trip on streams.** The encodings of well-formed frames,
concatenated and cut into pieces in any way, decode to exactly these frames in
order, without error and with nothing left; and whenever the decoder returns a
frame, that frame encodes to exactly the bytes consumed. -/
theorem frame_codec_round_trip :
    (∀ frames : List Frame, (∀ f ∈ frames, f.WellFormed) →
      ∃ encodings, frames.mapM (fun f => f.encode defaultMaxFrameSize) = .ok encodings ∧
        ∀ pieces : List Bytes, pieces.flatten = encodings.flatten →
          framing.feed pieces [] = (frames, .needMore, [])) ∧
    (∀ (d : FrameDecoder) (buf consumed rest : Bytes) (f : Frame),
      d.decode buf = (.ok (some f), rest) → buf = consumed ++ rest →
        ∀ maxFrameSize, consumed.length ≤ maxFrameSize →
          f.encode maxFrameSize = .ok consumed) := by
  refine ⟨fun frames hwf => ⟨frames.map Frame.bytes, mapM_encode hwf, ?_⟩, ?_⟩
  · intro pieces hpieces
    exact framing.feed_concat frames pieces hwf hpieces
  · intro d buf consumed rest f h hb maxFrameSize hmax
    exact FrameDecoder.encode_of_decode h hb hmax

/-- A DATA frame with a two-byte hint and a one-byte payload. -/
def hintedFrame : Frame :=
  { fast := { FastHeader.new .data 1 2 3 with hdrHintLen := 2 }, hint := some [0xAA, 0xBB],
    metaRaw := [], payloadOrCipher := [0x01] }

theorem hintedFrame_wellFormed : hintedFrame.WellFormed :=
  { fast := ⟨rfl, by decide, rfl, by decide⟩, hint := by decide, metaRaw := by decide,
    size := by decide }

/-- The frame arrives split inside its header, and encodes back to what was
consumed. -/
theorem frame_codec_round_trip_hinted :
    framing.feed [hintedFrame.bytes.take 9, hintedFrame.bytes.drop 9] []
      = ([hintedFrame], .needMore, []) ∧
    hintedFrame.encode 59 = .ok hintedFrame.bytes := by
  have hwf : ∀ f ∈ [hintedFrame], f.WellFormed := by
    intro f hf
    obtain rfl : f = hintedFrame := by simpa using hf
    exact hintedFrame_wellFormed
  have hcut : [hintedFrame.bytes.take 9, hintedFrame.bytes.drop 9].flatten
      = [hintedFrame.bytes].flatten := by
    simp [List.take_append_drop]
  have hdec : FrameDecoder.new.decode (hintedFrame.bytes ++ []) = (.ok (some hintedFrame), []) :=
    framing.decode_encode hintedFrame [] hintedFrame_wellFormed
  obtain ⟨encodings, henc, hfeed⟩ := frame_codec_round_trip.1 [hintedFrame] hwf
  rw [mapM_encode hwf] at henc
  refine ⟨hfeed _ (by rw [hcut, ← Except.ok.inj henc]; rfl), ?_⟩
  exact frame_codec_round_trip.2 .new _ hintedFrame.bytes [] hintedFrame hdec rfl 59 (by decide)

end MeshCore.Wire
