import MeshCore.Wire.Frame

/-!
# The decoder on every buffer

`FrameDecoder::decode` cuts a frame off the buffer before it looks into it. So
whatever is wrong with the contents, the bytes of the frame are gone and the next
call starts behind them, and the outcome does not depend on what follows in the
buffer (`decode_in_step`).

That no read is out of range follows from two judgments about computations in `Buf`:
`Reads k` for those that take exactly `k` bytes, and `Safe k` for those that never
read past the end of a buffer of `k` bytes. A check of the length is what turns
`Safe k` into `Safe 0` (`Safe.guard`).

The limits are a different matter (`accepted_within_limits_iff`): the decoder
compares the length field, without its own four bytes, with the limit that `encode`
compares the whole frame with, and no length with the limit of a hint.
-/

namespace MeshCore.Wire

open MeshCore.Lib

/-! ## Reads within the buffer -/

/-- An error of the contents of a frame: neither a panic nor `Size`. -/
def Fault.OfContents (f : Fault) : Prop := ∃ e, f = .wire e ∧ ∀ n, e ≠ .size n

/-- The computation takes `k` bytes, or fails over what it finds. -/
def Reads {α : Type} (k : Nat) (x : Buf α) : Prop :=
  ∀ buf : Bytes, k ≤ buf.length →
    (∃ a rest, x buf = .ok (a, rest) ∧ rest.length + k = buf.length) ∨
      ∃ f, x buf = .error f ∧ f.OfContents

/-- On `k` bytes or more the computation reads nothing behind the end. -/
def Safe {α : Type} (k : Nat) (x : Buf α) : Prop :=
  ∀ buf : Bytes, k ≤ buf.length → ∀ f, x buf = .error f → f.OfContents

section Rules

variable {α β : Type} {j k : Nat} {x : Buf α} {f : α → Buf β}

theorem bind_ok {buf : Bytes} (a : α) (rest : Bytes) (h : x buf = .ok (a, rest)) :
    (x >>= f) buf = f a rest := by
  show Except.bind (x buf) (fun p => f p.1 p.2) = _
  rw [h]
  rfl

theorem bind_error {e : Fault} {buf : Bytes} (h : x buf = .error e) :
    (x >>= f) buf = .error e := by
  show Except.bind (x buf) (fun p => f p.1 p.2) = _
  rw [h]
  rfl

/-- What was read need not be there for the rest. -/
theorem Reads.bind (hx : Reads j x) (hle : j ≤ k) (hf : ∀ a, Safe (k - j) (f a)) :
    Safe k (x >>= f) := by
  intro buf hlen e he
  rcases hx buf (by omega) with ⟨a, rest, hok, hrest⟩ | ⟨e', herr, he'⟩
  · rw [bind_ok a rest hok] at he
    exact hf a rest (by omega) e he
  · rw [bind_error herr] at he
    exact Except.error.inj he ▸ he'

theorem Safe.bind (hx : Safe 0 x) (hf : ∀ a, Safe 0 (f a)) : Safe 0 (x >>= f) := by
  intro buf _ e he
  cases h : x buf with
  | error e' =>
    rw [bind_error h] at he
    exact Except.error.inj he ▸ hx buf (Nat.zero_le _) e' h
  | ok p =>
    rw [bind_ok p.1 p.2 h] at he
    exact hf p.1 p.2 (Nat.zero_le _) e he

/-- A check that fails on every buffer too short. -/
theorem Safe.guard {c : Bytes → Prop} [DecidablePred c] {e : WireError} (he : ∀ n, e ≠ .size n)
    (hc : ∀ buf, ¬ c buf → k ≤ buf.length) (hx : Safe k x) :
    Safe j (do let buf ← get; failIf (c buf) e; x) := by
  intro buf _ e' he'
  rw [bind_ok (x := (get : Buf Bytes)) buf buf rfl] at he'
  by_cases hbuf : c buf
  · have hfail : failIf (c buf) e buf = .error (.wire e) := by
      rw [failIf, if_pos hbuf]
      rfl
    rw [bind_error hfail] at he'
    exact ⟨e, (Except.error.inj he').symm, he⟩
  · rw [bind_ok () buf (failIf_eq_ok.mpr ⟨hbuf, rfl⟩)] at he'
    exact hx buf (hc buf hbuf) e' he'

theorem safe_pure (a : α) : Safe k (pure a : Buf α) := by
  intro buf _ e h
  change Except.ok (a, buf) = .error e at h
  exact absurd h (by simp)

theorem reads_getUInt (conv : Nat → α) : Reads k (getUInt k conv) := by
  intro buf hlen
  refine Or.inl ⟨conv (getBE (buf.take k)), buf.drop k, ?_, ?_⟩
  · rw [getUInt, readBE, if_pos hlen]
  · rw [List.length_drop]
    omega

theorem reads_splitTo (n : Nat) : Reads n (splitTo n) := by
  intro buf hlen
  refine Or.inl ⟨buf.take n, buf.drop n, ?_, ?_⟩
  · rw [splitTo, splitAt?, if_pos hlen]
  · rw [List.length_drop]
    omega

theorem reads_failIf {c : Prop} [Decidable c] {e : WireError} (he : ∀ n, e ≠ .size n) :
    Reads 0 (failIf c e) := by
  intro buf _
  by_cases hc : c
  · refine Or.inr ⟨.wire e, ?_, e, rfl, he⟩
    rw [failIf, if_pos hc]
    rfl
  · exact Or.inl ⟨(), buf, failIf_eq_ok.mpr ⟨hc, rfl⟩, rfl⟩

theorem reads_liftWire {r : Except WireError α} (he : ∀ e n, r = .error e → e ≠ .size n) :
    Reads 0 (liftWire r) := by
  intro buf _
  cases r with
  | ok a => exact Or.inl ⟨a, buf, rfl, rfl⟩
  | error e => exact Or.inr ⟨.wire e, rfl, e, rfl, fun n => he e n rfl⟩

end Rules

/-! ## Decoding a frame is safe -/

theorem FrameType.tryFrom_error {b : UInt8} {e : WireError} (h : FrameType.tryFrom b = .error e) :
    e = .unknownType b := by
  unfold FrameType.tryFrom at h
  split at h <;> simp_all

theorem StatusCode.tryFrom_error {b : UInt8} {e : WireError}
    (h : StatusCode.tryFrom b = .error e) : e = .unknownCode b := by
  unfold StatusCode.tryFrom at h
  split at h <;> simp_all

/-- The header is checked for its length once, and then read field by field. -/
theorem FastHeader.decode_safe : Safe 0 FastHeader.decode := by
  refine Safe.guard (k := fastHeaderSize) (by simp) (fun _ => Nat.le_of_not_lt) ?_
  refine (reads_getUInt _).bind (by decide) fun ver => ?_
  refine (reads_failIf (by simp)).bind (by decide) fun _ => ?_
  refine (reads_getUInt _).bind (by decide) fun typ => ?_
  refine (reads_liftWire fun e n h => by simp [FrameType.tryFrom_error h]).bind
    (by decide) fun typ => ?_
  refine (reads_getUInt _).bind (by decide) fun bits => ?_
  refine (reads_liftWire fun e n h => ?_).bind (by decide) fun flags => ?_
  · cases hb : Flags.fromBits bits with
    | none =>
      rw [hb] at h
      rw [← Except.error.inj h]
      simp
    | some flags =>
      rw [hb] at h
      exact absurd h (by simp)
  refine (reads_getUInt _).bind (by decide) fun code => ?_
  refine (reads_liftWire fun e n h => by simp [StatusCode.tryFrom_error h]).bind
    (by decide) fun code => ?_
  refine (reads_getUInt _).bind (by decide) fun ttl => ?_
  refine (reads_getUInt _).bind (by decide) fun reserved0 => ?_
  refine (reads_failIf (by simp)).bind (by decide) fun _ => ?_
  refine (reads_failIf (by simp)).bind (by decide) fun _ => ?_
  refine (reads_getUInt _).bind (by decide) fun msgId => ?_
  refine (reads_getUInt _).bind (by decide) fun corrId => ?_
  refine (reads_getUInt _).bind (by decide) fun srcNode => ?_
  refine (reads_getUInt _).bind (by decide) fun dstNode => ?_
  refine (reads_getUInt _).bind (by decide) fun route => ?_
  refine (reads_getUInt _).bind (by decide) fun hdrHintLen => ?_
  exact safe_pure _

theorem readHint_safe (hintLen : UInt32) : Safe 0 (readHint hintLen) := by
  unfold readHint
  split
  next =>
    refine Safe.guard (by simp) (fun _ => Nat.le_of_not_lt) ?_
    exact (reads_splitTo _).bind (Nat.le_refl _) fun _ => safe_pure _
  next => exact safe_pure _

theorem decodeFrame_safe : Safe 0 decodeFrame := by
  refine FastHeader.decode_safe.bind fun fast => (readHint_safe _).bind fun hint => ?_
  refine Safe.guard (k := 4) (by simp) (fun _ => Nat.le_of_not_lt) ?_
  refine (reads_getUInt _).bind (Nat.le_refl _) fun metaLen => ?_
  refine Safe.guard (by simp) (fun buf h => Nat.le_of_not_lt fun hlt => h (Or.inr hlt)) ?_
  refine (reads_splitTo _).bind (Nat.le_refl _) fun metaRaw => ?_
  intro payload _ e h
  rw [bind_ok (x := (get : Buf Bytes)) payload payload rfl] at h
  exact safe_pure _ payload (Nat.zero_le _) e h

/-! ## One call -/

/-- The outcome of a call that found the whole frame, given what its bytes decode
to. -/
def outcome : Except Fault (Frame × Bytes) → Except Fault (Option Frame)
  | .ok (frame, _) => .ok (some frame)
  | .error e => .error e

namespace FrameDecoder

variable {d : FrameDecoder}

theorem decode_short {buf : Bytes} (h : buf.length < 4) : d.decode buf = (.ok none, buf) :=
  if_pos h

theorem decode_too_long {frameLen : UInt32} (h : d.maxFrameSize < frameLen.toNat) (rest : Bytes) :
    d.decode (putU32 frameLen ++ rest)
      = (.error (.wire (.size frameLen.toNat)), putU32 frameLen ++ rest) := by
  unfold decode
  rw [if_neg (by simp), getU32_eq_ok.mpr rfl]
  exact if_pos h

theorem decode_incomplete {frameLen : UInt32} (h : frameLen.toNat ≤ d.maxFrameSize)
    {rest : Bytes} (hrest : rest.length < frameLen.toNat) :
    d.decode (putU32 frameLen ++ rest) = (.ok none, putU32 frameLen ++ rest) := by
  unfold decode
  rw [if_neg (by simp), getU32_eq_ok.mpr rfl]
  refine (if_neg (Nat.not_lt.mpr h)).trans (if_pos ?_)
  rw [List.length_append, putU32_length]
  omega

/-- A frame that is there is cut off, whatever it decodes to. -/
theorem decode_complete {frameLen : UInt32} (h : frameLen.toNat ≤ d.maxFrameSize)
    {frameBuf : Bytes} (hlen : frameBuf.length = frameLen.toNat) (rest : Bytes) :
    d.decode (putU32 frameLen ++ (frameBuf ++ rest)) = (outcome (decodeFrame frameBuf), rest) := by
  unfold decode
  rw [if_neg (by simp), getU32_eq_ok.mpr rfl]
  dsimp only
  rw [if_neg (Nat.not_lt.mpr h), if_neg, splitTo_eq_ok.mpr ⟨rfl, hlen⟩]
  · dsimp only
    cases decodeFrame frameBuf <;> rfl
  · rw [List.length_append, List.length_append, putU32_length, hlen]
    omega

/-- **What a call can meet.** Too few bytes for a length; a length above the limit; a
frame that has not arrived; or a whole frame. -/
theorem buffer_cases (d : FrameDecoder) (buf : Bytes) :
    buf.length < 4 ∨ ∃ frameLen rest, buf = putU32 frameLen ++ rest ∧
      (d.maxFrameSize < frameLen.toNat ∨
        (frameLen.toNat ≤ d.maxFrameSize ∧ rest.length < frameLen.toNat) ∨
        (frameLen.toNat ≤ d.maxFrameSize ∧ ∃ frameBuf rest', rest = frameBuf ++ rest' ∧
          frameBuf.length = frameLen.toNat)) := by
  by_cases h4 : buf.length < 4
  · exact Or.inl h4
  · refine Or.inr ?_
    rcases reads_getUInt UInt32.ofNat buf (Nat.le_of_not_lt h4) with
      ⟨frameLen, rest, hread, -⟩ | ⟨e, herr, -⟩
    · refine ⟨frameLen, rest, getU32_eq_ok.mp hread, ?_⟩
      by_cases hmax : d.maxFrameSize < frameLen.toNat
      · exact Or.inl hmax
      · refine Or.inr ?_
        by_cases hlen : rest.length < frameLen.toNat
        · exact Or.inl ⟨by omega, hlen⟩
        · refine Or.inr ⟨by omega, _, _, (List.take_append_drop frameLen.toNat rest).symm, ?_⟩
          rw [List.length_take]
          omega
    · -- four bytes can always be read
      rw [getUInt, readBE, if_pos (Nat.le_of_not_lt h4)] at herr
      exact absurd herr (by simp)

end FrameDecoder

theorem outcome_error {r : Except Fault (Frame × Bytes)} {e : Fault} (h : outcome r = .error e) :
    r = .error e := by
  cases r with
  | ok p => exact absurd h (by simp [outcome])
  | error e' => exact congrArg Except.error (Except.error.inj h)

/-- What a frame decodes to is a frame or an error of its contents. -/
theorem outcome_decodeFrame (frameBuf : Bytes) :
    outcome (decodeFrame frameBuf) ≠ .ok none ∧
      ∀ e, outcome (decodeFrame frameBuf) = .error e → e.OfContents := by
  refine ⟨?_, fun e he => decodeFrame_safe frameBuf (Nat.zero_le _) e (outcome_error he)⟩
  cases decodeFrame frameBuf <;> simp [outcome]

/-- **The decoder stays in step with the stream.** On every buffer: no read is out of
range; a request for more bytes and a `Size` error leave the buffer alone; every other
outcome takes exactly the length field and the bytes that it announces; and bytes
appended to the buffer change neither an outcome nor what is taken for it. -/
theorem decode_in_step (d : FrameDecoder) (buf : Bytes) :
    (d.decode buf).1 ≠ .error .panic ∧
    ((d.decode buf).1 = .ok none ∨ (∃ n, (d.decode buf).1 = .error (.wire (.size n))) →
      (d.decode buf).2 = buf) ∧
    ((d.decode buf).1 ≠ .ok none → (∀ n, (d.decode buf).1 ≠ .error (.wire (.size n))) →
      ∃ frameLen frameBuf, buf = putU32 frameLen ++ (frameBuf ++ (d.decode buf).2) ∧
        frameBuf.length = frameLen.toNat) ∧
    ((d.decode buf).1 ≠ .ok none →
      ∀ more, d.decode (buf ++ more) = ((d.decode buf).1, (d.decode buf).2 ++ more)) := by
  rcases d.buffer_cases buf with h4 | ⟨frameLen, rest, rfl, hcase⟩
  · rw [FrameDecoder.decode_short h4]
    exact ⟨by simp, fun _ => rfl, fun h => absurd rfl h, fun h => absurd rfl h⟩
  rcases hcase with hmax | ⟨hmax, hlen⟩ | ⟨hmax, frameBuf, rest', rfl, hlen⟩
  · rw [FrameDecoder.decode_too_long hmax]
    refine ⟨by simp, fun _ => rfl, fun _ h => absurd rfl (h _), fun _ more => ?_⟩
    rw [List.append_assoc, FrameDecoder.decode_too_long hmax]
  · rw [FrameDecoder.decode_incomplete hmax hlen]
    exact ⟨by simp, fun _ => rfl, fun h => absurd rfl h, fun h => absurd rfl h⟩
  · obtain ⟨hnone, herror⟩ := outcome_decodeFrame frameBuf
    rw [FrameDecoder.decode_complete hmax hlen]
    refine ⟨fun h => ?_, fun h => ?_, fun _ _ => ⟨frameLen, frameBuf, rfl, hlen⟩, fun _ more => ?_⟩
    · obtain ⟨e, he, -⟩ := herror _ h
      exact absurd he (by simp)
    · rcases h with h | ⟨n, h⟩
      · exact absurd h hnone
      · obtain ⟨e, he, hsize⟩ := herror _ h
        exact absurd (Fault.wire.inj he).symm (hsize n)
    · rw [List.append_assoc, List.append_assoc, FrameDecoder.decode_complete hmax hlen]

/-! ## One frame for its bytes -/

theorem putU32_append_inj {a b : UInt32} {x y : Bytes} (h : putU32 a ++ x = putU32 b ++ y) :
    a = b ∧ x = y := by
  have hread : getU32 (putU32 b ++ y) = .ok (a, x) := getU32_eq_ok.mpr h.symm
  rw [getU32_eq_ok.mpr rfl] at hread
  obtain ⟨hab, hxy⟩ := Prod.mk.inj (Except.ok.inj hread)
  exact ⟨hab.symm, hxy.symm⟩

/-- A frame with a valid header, a hint that goes with it, and a length that fits
32 bits. It lacks the limit of the metadata to be of the shape the decoder demands. -/
structure Frame.Framed (f : Frame) : Prop where
  fast : f.fast.WellFormed
  hint : HintMatches f.fast.hdrHintLen f.hint
  size : f.encodedSize - 4 < 2 ^ 32

theorem Frame.HintMatches.getD_length {n : UInt32} {hint : Option Bytes} (h : HintMatches n hint) :
    (hint.getD []).length = n.toNat := by
  cases hint with
  | none => exact (congrArg UInt32.toNat (show n = 0 from h)).symm
  | some hint => exact h.2

theorem Frame.HintMatches.unique {n : UInt32} {hint₁ hint₂ : Option Bytes}
    (h₁ : HintMatches n hint₁) (h₂ : HintMatches n hint₂) (h : hint₁.getD [] = hint₂.getD []) :
    hint₁ = hint₂ := by
  cases hint₁ with
  | none =>
    cases hint₂ with
    | none => rfl
    | some b => exact absurd h₂.1 (by simp [← show [] = b from h])
  | some a =>
    cases hint₂ with
    | none => exact absurd h₁.1 (by simp [show a = [] from h])
    | some b => exact congrArg some h

/-- **The body determines the frame.** -/
theorem Frame.Framed.eq_of_body {f g : Frame} (hf : f.Framed) (hg : g.Framed)
    (h : f.body = g.body) : f = g := by
  unfold Frame.body at h
  obtain ⟨hencode, hrest⟩ := List.append_inj h (by rw [FastHeader.encode_length,
    FastHeader.encode_length])
  have hfast : f.fast = g.fast := by
    have hdecode := FastHeader.decode_encode hf.fast []
    rw [hencode, FastHeader.decode_encode hg.fast []] at hdecode
    exact (Prod.mk.inj (Except.ok.inj hdecode)).1.symm
  have hgHint := hg.hint
  rw [← hfast] at hgHint
  obtain ⟨hhint, hrest⟩ := List.append_inj hrest (hf.hint.getD_length.trans
    hgHint.getD_length.symm)
  obtain ⟨hlen, hrest⟩ := putU32_append_inj hrest
  -- both metadata lengths fit the field
  have hmetaLen : f.metaRaw.length = g.metaRaw.length := by
    have hfSize := hf.size
    have hgSize := hg.size
    unfold Frame.encodedSize at hfSize hgSize
    have hnat := congrArg UInt32.toNat hlen
    rwa [UInt32.toNat_ofNat_of_lt' (show f.metaRaw.length < 2 ^ 32 by omega),
      UInt32.toNat_ofNat_of_lt' (show g.metaRaw.length < 2 ^ 32 by omega)] at hnat
  obtain ⟨hmeta, hpayload⟩ := List.append_inj hrest hmetaLen
  cases f
  cases g
  cases hfast
  cases hmeta
  cases hpayload
  cases hf.hint.unique hgHint hhint
  rfl

/-- **What the bytes of a frame decode to**: the frame, if its length and its
metadata are within the limits. -/
theorem FrameDecoder.decode_bytes_iff {d : FrameDecoder} {f g : Frame} (hg : g.Framed)
    {rest : Bytes} :
    d.decode g.bytes = (.ok (some f), rest) ↔ f = g ∧ rest = [] ∧
      g.metaRaw.length ≤ maxMetaSize ∧ g.encodedSize - 4 ≤ d.maxFrameSize := by
  rw [decode_eq_some]
  constructor
  · rintro ⟨hbytes, hshape, hmax, h32⟩
    unfold Frame.bytes at hbytes
    rw [List.append_assoc] at hbytes
    obtain ⟨hlen, hbody⟩ := putU32_append_inj hbytes
    have hsize := congrArg UInt32.toNat hlen
    rw [Frame.toNat_lenField hg.size, Frame.toNat_lenField h32] at hsize
    -- equal lengths leave nothing behind the frame
    have hrest : rest = [] := by
      have hlens := congrArg List.length hbody
      rw [List.length_append, Frame.body_length, Frame.body_length] at hlens
      exact List.eq_nil_of_length_eq_zero (by omega)
    rw [hrest, List.append_nil] at hbody
    obtain rfl : f = g :=
      Frame.Framed.eq_of_body ⟨hshape.fast, hshape.hint, h32⟩ hg hbody.symm
    exact ⟨rfl, hrest, hshape.metaRaw, hmax⟩
  · rintro ⟨rfl, rfl, hmeta, hmax⟩
    exact ⟨(List.append_nil _).symm, ⟨hg.fast, hg.hint, hmeta⟩, hmax, hg.size⟩

/-! ## The declared limits -/

/-- `MAX_HINT_SIZE`. -/
def maxHintSize : Nat := 128

/-- A frame as the declared limits have it. -/
structure Frame.WithinLimits (f : Frame) : Prop where
  hint : ∀ hint, f.hint = some hint → hint.length ≤ maxHintSize
  metaRaw : f.metaRaw.length ≤ maxMetaSize
  size : f.encodedSize ≤ defaultMaxFrameSize
  encodes : ∃ bytes, f.encode defaultMaxFrameSize = .ok bytes

/-- The big-endian `u32` at an offset of the buffer. -/
def u32At (offset : Nat) (buf : Bytes) : Nat := getBE ((buf.drop offset).take 4)

theorem u32At_append (front : Bytes) (x : UInt32) (rest : Bytes) :
    u32At front.length (front ++ (putU32 x ++ rest)) = x.toNat := by
  rw [u32At, List.drop_left, List.take_left' (putU32_length x), putU32, getBE_putBE]
  exact Nat.mod_eq_of_lt x.toNat_lt

/-- The hint length is the last field of the header. -/
theorem FastHeader.encode_split (h : FastHeader) :
    ∃ front : Bytes, front.length = 44 ∧ h.encode = front ++ putU32 h.hdrHintLen := by
  refine ⟨h.encode.take 44, ?_, ?_⟩
  · rw [List.length_take, encode_length]
    rfl
  · have hdrop : h.encode.drop 44 = putU32 h.hdrHintLen := rfl
    rw [← hdrop, List.take_append_drop]

/-- The two length fields in front of an encoded frame. -/
theorem Frame.u32At_bytes {f : Frame} (h32 : f.encodedSize - 4 < 2 ^ 32) (rest : Bytes) :
    u32At 0 (f.bytes ++ rest) = f.encodedSize - 4 ∧
      u32At 48 (f.bytes ++ rest) = f.fast.hdrHintLen.toNat := by
  obtain ⟨front, hlen, hencode⟩ := f.fast.encode_split
  constructor
  · rw [bytes, List.append_assoc]
    exact (u32At_append [] _ _).trans (Frame.toNat_lenField h32)
  · have hbytes : f.bytes ++ rest = (putU32 (UInt32.ofNat (f.encodedSize - 4)) ++ front)
        ++ (putU32 f.fast.hdrHintLen ++ (f.hint.getD [] ++ (putU32 (UInt32.ofNat f.metaRaw.length)
          ++ (f.metaRaw ++ f.payloadOrCipher)) ++ rest)) := by
      rw [bytes, body, hencode]
      simp only [List.append_assoc]
    have hoffset : (putU32 (UInt32.ofNat (f.encodedSize - 4)) ++ front).length = 48 := by
      rw [List.length_append, putU32_length, hlen]
    rw [hbytes, ← hoffset]
    exact u32At_append ..

/-- **When an accepted frame respects the declared limits.** The hint length in the
header is at most `MAX_HINT_SIZE`, and the frame length leaves room for its own four
bytes. The decoder checks neither. -/
theorem accepted_within_limits_iff (buf rest : Bytes) (f : Frame)
    (h : FrameDecoder.new.decode buf = (.ok (some f), rest)) :
    f.WithinLimits ↔ u32At 48 buf ≤ maxHintSize ∧ u32At 0 buf + 4 ≤ defaultMaxFrameSize := by
  obtain ⟨rfl, hshape, -, h32⟩ := FrameDecoder.decode_eq_some.mp h
  obtain ⟨hlen, hhint⟩ := f.u32At_bytes h32 rest
  have hge : 4 ≤ f.encodedSize := by
    rw [Frame.encodedSize]
    omega
  rw [hlen, hhint, Nat.sub_add_cancel hge]
  have hmatches := hshape.hint
  constructor
  · intro hlimits
    refine ⟨?_, hlimits.size⟩
    cases hf : f.hint with
    | none =>
      rw [hf] at hmatches
      rw [show f.fast.hdrHintLen = 0 from hmatches]
      exact Nat.zero_le _
    | some hint =>
      rw [hf] at hmatches
      exact hmatches.2 ▸ hlimits.hint hint hf
  · rintro ⟨hhintLen, hsize⟩
    refine ⟨fun hint hf => ?_, hshape.metaRaw, hsize, _, Frame.encode_eq_ok hsize⟩
    rw [hf] at hmatches
    exact hmatches.2 ▸ hhintLen

theorem accepted_within_limits_iff_hinted :
    hintedFrame.WithinLimits ↔
      u32At 48 hintedFrame.bytes ≤ 128 ∧ u32At 0 hintedFrame.bytes + 4 ≤ 16 * 1024 * 1024 := by
  refine accepted_within_limits_iff hintedFrame.bytes [] hintedFrame ?_
  have hdecode := framing.decode_encode hintedFrame [] hintedFrame_wellFormed
  rwa [List.append_nil] at hdecode

/-- A DATA frame with a hint of 129 bytes is accepted. -/
theorem long_hint_accepted :
    ¬ ∀ (buf rest : Bytes) (f : Frame), FrameDecoder.new.decode buf = (.ok (some f), rest) →
      f.WithinLimits := by
  intro h
  let f : Frame :=
    { fast := { FastHeader.new .data 1 2 3 with hdrHintLen := 129 }
      hint := some (List.replicate 129 0), metaRaw := [], payloadOrCipher := [] }
  have hshape : f.Shape :=
    { fast := ⟨rfl, by decide, rfl, by decide⟩, hint := by decide +kernel, metaRaw := by decide }
  have hdecode := FrameDecoder.decode_bytes_append (d := .new) hshape (by decide +kernel)
    (by decide +kernel) []
  exact absurd ((h _ _ f hdecode).hint _ rfl) (by decide +kernel)

end MeshCore.Wire
