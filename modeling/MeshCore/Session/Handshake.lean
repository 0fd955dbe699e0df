import MeshCore.Wire.Frame
import Mathlib.Tactic.IntervalCases

/-!
# Reading frames from a socket (`mesh-session/src/handshake.rs`)

`recv_any_frame` is a read-more-then-parse loop: it reads from the socket
first, appends, and only then tries to decode one frame. So every socket read
yields at most one frame, and a read of zero bytes ends the loop even when the
buffer still holds whole frames. This file proves what that costs.

`recvCalls` is a session calling `recv_any_frame` again and again on one
decoder and one buffer, up to the first error. `reads_deliver_all` is the exact
condition under which all frames of a well-formed stream come out before the
EOF error: after every read, the frames still to be completed, together with
those lying in the buffer, must not outnumber the reads still to come. In terms
of the stream alone: for every `k`, the frames not completed by the first `k`
reads are at most as many as the reads after the `k`-th.

Mirroring notes: the reader is the list of what its successive `read_buf` calls
give, and an exhausted list is the end of the stream; `BytesMut` grows, so a
read of zero bytes never comes from a full buffer.
-/

namespace MeshCore.Session

open MeshCore.Lib MeshCore.Wire

/-- What one `read_buf` on the socket gives. -/
inductive SocketRead where
  | data (bytes : Bytes)
  | ioError
  deriving Repr, DecidableEq

/-- The errors of `recv_any_frame`. -/
inductive RecvError where
  | io
  | eof
  | decode (e : Fault)
  deriving Repr, DecidableEq

/-- `recv_any_frame`: its result, the reads not yet consumed, and the buffer. -/
def recvAnyFrame (decoder : FrameDecoder) :
    List SocketRead → Bytes → Except RecvError Frame × List SocketRead × Bytes
  | [], buffer => (.error .eof, [], buffer)
  | .ioError :: reads, buffer => (.error .io, reads, buffer)
  | .data bytes :: reads, buffer =>
    -- the decoder is asked only after a read that gave something
    if bytes.length = 0 then (.error .eof, reads, buffer)
    else
      match decoder.decode (buffer ++ bytes) with
      | (.ok (some frame), buffer) => (.ok frame, reads, buffer)
      | (.ok none, buffer) => recvAnyFrame decoder reads buffer
      | (.error e, buffer) => (.error (.decode e), reads, buffer)

/-- At most `n` successive calls, up to the first error: the frames returned
before it, and the error if it was reached. -/
def recvCalls (decoder : FrameDecoder) :
    Nat → List SocketRead → Bytes → List Frame × Option RecvError
  | 0, _, _ => ([], none)
  | n + 1, reads, buffer =>
    match recvAnyFrame decoder reads buffer with
    | (.ok frame, reads, buffer) =>
      let (frames, e) := recvCalls decoder n reads buffer
      (frame :: frames, e)
    | (.error e, _, _) => ([], some e)

/-- How many of the frames, of the given sizes, end within the first `n` bytes
of their stream. -/
def framesWithin : List Nat → Nat → Nat
  | [], _ => 0
  | size :: sizes, n => if size ≤ n then framesWithin sizes (n - size) + 1 else 0

/-- How many of the frames are complete once these reads have arrived. -/
def completedBy (frames : List Frame) (reads : List Bytes) : Nat :=
  framesWithin (frames.map Frame.encodedSize) reads.flatten.length

/-- No point of the stream has more frames outstanding than reads to come. -/
def Paced (frames : List Frame) (reads : List Bytes) : Prop :=
  ∀ k, k ≤ reads.length →
    frames.length - completedBy frames (reads.take k) ≤ reads.length - k

/-! ## One read at a time -/

/-- Unfolding the loop of the current call by one non-empty read. -/
theorem recvCalls_data {d : FrameDecoder} {n : Nat} {bytes buffer : Bytes}
    {reads : List SocketRead} (h : bytes ≠ []) :
    recvCalls d (n + 1) (.data bytes :: reads) buffer =
      match d.decode (buffer ++ bytes) with
      | (.ok (some frame), buffer) =>
        (frame :: (recvCalls d n reads buffer).1, (recvCalls d n reads buffer).2)
      | (.ok none, buffer) => recvCalls d (n + 1) reads buffer
      | (.error e, _) => ([], some (.decode e)) := by
  have hlen : ¬ bytes.length = 0 := fun h0 => h (List.eq_nil_of_length_eq_zero h0)
  rw [recvCalls, recvAnyFrame, if_neg hlen]
  cases d.decode (buffer ++ bytes) with
  | mk outcome buffer' =>
    cases outcome with
    | error e => rfl
    | ok o =>
      cases o with
      | none => rfl
      | some frame => rfl

theorem recvCalls_nil {d : FrameDecoder} {n : Nat} {buffer : Bytes} :
    recvCalls d (n + 1) [] buffer = ([], some .eof) := rfl

/-! ## The exact condition -/

/-- The condition `Paced`, for a reader that already holds `buffered` bytes of
the stream of these frames: nothing in the buffer counts as delivered. -/
def PacedFrom (sizes : List Nat) (buffered : Nat) (reads : List Bytes) : Prop :=
  sizes.length ≤ reads.length ∧
  ∀ k, 1 ≤ k → k ≤ reads.length →
    sizes.length - framesWithin sizes (buffered + (reads.take k).flatten.length)
      ≤ reads.length - k

/-- A read that completes the first frame: one frame and one read less. -/
theorem pacedFrom_complete {size buffered left : Nat} {sizes : List Nat} {r : Bytes}
    {reads : List Bytes} (h : buffered + r.length = size + left) :
    PacedFrom (size :: sizes) buffered (r :: reads) ↔ PacedFrom sizes left reads := by
  have hstep : ∀ k,
      framesWithin (size :: sizes) (buffered + ((r :: reads).take (k + 1)).flatten.length)
      = framesWithin sizes (left + (reads.take k).flatten.length) + 1 := by
    intro k
    rw [List.take_succ_cons, List.flatten_cons, List.length_append, framesWithin,
      if_pos (by omega)]
    congr 2
    omega
  refine ⟨fun ⟨h0, hk⟩ => ⟨?_, ?_⟩, fun ⟨h0, hk⟩ => ⟨?_, ?_⟩⟩
  · simp only [List.length_cons] at h0
    omega
  · intro k h1 hle
    have := hk (k + 1) (by omega) (by rw [List.length_cons]; omega)
    rw [hstep k] at this
    simp only [List.length_cons] at this
    omega
  · simp only [List.length_cons]
    omega
  · intro k h1 hle
    obtain ⟨k, rfl⟩ : ∃ j, k = j + 1 := ⟨k - 1, by omega⟩
    rw [hstep k]
    simp only [List.length_cons] at hle ⊢
    rcases Nat.eq_zero_or_pos k with hk0 | hkpos
    · omega
    · have := hk k hkpos (by omega)
      omega

/-- A read that leaves the first frame incomplete: one read less. -/
theorem pacedFrom_incomplete {size buffered : Nat} {sizes : List Nat} {r : Bytes}
    {reads : List Bytes} (h : buffered + r.length < size) :
    PacedFrom (size :: sizes) buffered (r :: reads) ↔
      PacedFrom (size :: sizes) (buffered + r.length) reads := by
  have hstep : ∀ k, buffered + ((r :: reads).take (k + 1)).flatten.length
      = buffered + r.length + (reads.take k).flatten.length := by
    intro k
    rw [List.take_succ_cons, List.flatten_cons, List.length_append]
    omega
  have hone : framesWithin (size :: sizes) (buffered + ((r :: reads).take 1).flatten.length)
      = 0 := by
    rw [hstep 0, framesWithin, if_neg]
    simp only [List.take_zero, List.flatten_nil, List.length_nil]
    omega
  refine ⟨fun ⟨h0, hk⟩ => ⟨?_, ?_⟩, fun ⟨h0, hk⟩ => ⟨?_, ?_⟩⟩
  · have := hk 1 (by omega) (by rw [List.length_cons]; omega)
    rw [hone] at this
    simp only [List.length_cons] at this ⊢
    omega
  · intro k h1 hle
    have := hk (k + 1) (by omega) (by rw [List.length_cons]; omega)
    rw [hstep k] at this
    simp only [List.length_cons] at this ⊢
    omega
  · simp only [List.length_cons] at h0 ⊢
    omega
  · intro k h1 hle
    obtain ⟨k, rfl⟩ : ∃ j, k = j + 1 := ⟨k - 1, by omega⟩
    rcases Nat.eq_zero_or_pos k with hk0 | hkpos
    · subst hk0
      rw [hone]
      simp only [List.length_cons] at h0 ⊢
      omega
    · have := hk k hkpos (by simp only [List.length_cons] at hle; omega)
      rw [hstep k]
      simp only [List.length_cons] at this ⊢
      omega

/-- The condition at any point of the stream: the reader holds `buffer`, the
reads are still to come, and together they are the bytes of `frames`. -/
theorem recvCalls_eq_iff : ∀ (reads : List Bytes) (frames : List Frame) (buffer : Bytes) (n : Nat),
    (∀ f ∈ frames, f.WellFormed) → (∀ r ∈ reads, r ≠ []) →
    buffer ++ reads.flatten = framing.concat frames → reads.length < n →
    ((recvCalls .new n (reads.map .data) buffer).1 = frames ↔
      PacedFrom (frames.map Frame.encodedSize) buffer.length reads)
  | [], frames, buffer, 0, _, _, _, hn => absurd hn (Nat.not_lt_zero _)
  | _ :: _, frames, buffer, 0, _, _, _, hn => absurd hn (Nat.not_lt_zero _)
  | [], frames, buffer, n + 1, _, _, _, _ => by
    rw [List.map_nil, recvCalls_nil]
    refine ⟨fun h => ?_, fun ⟨h0, _⟩ => ?_⟩
    · rw [← h]
      exact ⟨Nat.le_refl _, fun k h1 hk => absurd hk (by rw [List.length_nil]; omega)⟩
    · rw [List.length_map, List.length_nil] at h0
      exact (List.eq_nil_of_length_eq_zero (by omega)).symm
  | r :: reads, frames, buffer, n + 1, hwf, hne, hcat, hn => by
    have hr : r ≠ [] := hne r (List.mem_cons_self ..)
    have hne' : ∀ s ∈ reads, s ≠ [] := fun s hs => hne s (List.mem_cons_of_mem _ hs)
    rw [List.flatten_cons, ← List.append_assoc] at hcat
    rw [List.length_cons] at hn
    rw [List.map_cons, recvCalls_data hr]
    cases frames with
    | nil =>
      -- no frame is outstanding, so there is nothing to read
      have := (List.append_eq_nil_iff.mp hcat).1
      exact absurd (List.append_eq_nil_iff.mp this).2 hr
    | cons f fs =>
      have hf : f.WellFormed := hwf f (List.mem_cons_self ..)
      have hfs : ∀ g ∈ fs, g.WellFormed := fun g hg => hwf g (List.mem_cons_of_mem _ hg)
      rcases framing.split_front hcat with ⟨p', hp, hrest⟩ | ⟨q', henc, hq', -⟩
      · -- the call ends here, and what follows the frame waits in the buffer
        have hdec : FrameDecoder.new.decode (buffer ++ r) = (.ok (some f), p') := by
          rw [hp]
          exact framing.decode_encode f p' hf
        have hsize : buffer.length + r.length = f.encodedSize + p'.length := by
          have := congrArg List.length hp
          rw [List.length_append, List.length_append] at this
          rw [← f.bytes_length]
          exact this
        rw [hdec, List.map_cons, pacedFrom_complete hsize,
          ← recvCalls_eq_iff reads fs p' n hfs hne' hrest (by omega)]
        exact ⟨fun h => (List.cons.inj h).2, fun h => congrArg (List.cons f) h⟩
      · -- the call goes on to the next read
        have hdec : FrameDecoder.new.decode (buffer ++ r) = (.ok none, buffer ++ r) :=
          framing.decode_partial f (buffer ++ r) q' hf henc hq'
        have hsize : buffer.length + r.length < f.encodedSize := by
          have := congrArg List.length henc
          have hq0 : 0 < q'.length := List.length_pos_iff.mpr hq'
          rw [List.length_append, List.length_append] at this
          have hb : (framing.encode f).length = f.encodedSize := f.bytes_length
          omega
        rw [hdec, List.map_cons, pacedFrom_incomplete hsize, ← List.length_append,
          ← List.map_cons (f := Frame.encodedSize)]
        exact recvCalls_eq_iff reads (f :: fs) (buffer ++ r) (n + 1) hwf hne' hcat (by omega)

/-- From an empty buffer, before the first read nothing is complete, so the
first half of `PacedFrom` is the case `k = 0` of `Paced`. -/
theorem pacedFrom_zero {frames : List Frame} {reads : List Bytes} :
    PacedFrom (frames.map Frame.encodedSize) 0 reads ↔ Paced frames reads := by
  have hzero : completedBy frames (reads.take 0) = 0 := by
    cases frames with
    | nil => rfl
    | cons f fs =>
      rw [completedBy, List.map_cons, framesWithin, if_neg]
      simp [Frame.encodedSize]
  refine ⟨fun hpaced k hle => ?_, fun h => ⟨?_, fun k h1 hle => ?_⟩⟩
  · obtain ⟨h0, hk⟩ := hpaced
    rcases Nat.eq_zero_or_pos k with hk0 | hkpos
    · subst hk0
      rw [hzero]
      rw [List.length_map] at h0
      omega
    · have := hk k hkpos hle
      rw [Nat.zero_add, List.length_map] at this
      exact this
  · have := h 0 (Nat.zero_le _)
    rw [hzero] at this
    rw [List.length_map]
    omega
  · rw [Nat.zero_add, List.length_map]
    exact h k hle

/-- A call never gives reads back. -/
theorem recvAnyFrame_reads_le {d : FrameDecoder} : ∀ (reads : List SocketRead) (buffer : Bytes),
    (recvAnyFrame d reads buffer).2.1.length ≤ reads.length - 1
  | [], _ => Nat.le_refl _
  | .ioError :: reads, _ => Nat.le_refl _
  | .data bytes :: reads, buffer => by
    rw [recvAnyFrame]
    split
    next => exact Nat.le_refl _
    next =>
      split
      next => exact Nat.le_refl _
      next =>
        have := recvAnyFrame_reads_le (d := d) reads ‹_›
        rw [List.length_cons]
        omega
      next => exact Nat.le_refl _

theorem recvAnyFrame_nil {d : FrameDecoder} {buffer : Bytes} :
    recvAnyFrame d [] buffer = (.error .eof, [], buffer) := rfl

/-- More calls than reads: the run has come to its first error. -/
theorem recvCalls_ends {d : FrameDecoder} : ∀ (n : Nat) (reads : List SocketRead) (buffer : Bytes),
    reads.length < n → (recvCalls d n reads buffer).2 ≠ none
  | 0, _, _, hn => absurd hn (Nat.not_lt_zero _)
  | n + 1, reads, buffer, hn => by
    have hle := recvAnyFrame_reads_le (d := d) reads buffer
    rw [recvCalls]
    split
    next frame reads' buffer' hcall =>
      rw [hcall] at hle
      dsimp only at hle
      -- a call that returned a frame has consumed a read
      have hpos : reads ≠ [] := by
        intro h
        rw [h, recvAnyFrame_nil] at hcall
        simp at hcall
      have : 0 < reads.length := List.length_pos_iff.mpr hpos
      exact recvCalls_ends n reads' buffer' (by omega)
    next => simp

/-- **When no frame is lost at the reader.** For every stream of well-formed
frames, cut into non-empty reads and followed by EOF, the calls come to an
error, and the frames returned before it are all the frames of the stream
exactly when the reads are paced: for every `k`, the frames not complete after
the first `k` reads are at most as many as the reads that follow. -/
theorem reads_deliver_all {frames : List Frame} {encodings reads : List Bytes} {n : Nat}
    (hwf : ∀ f ∈ frames, f.WellFormed)
    (henc : frames.mapM (fun f => f.encode defaultMaxFrameSize) = .ok encodings)
    (hne : ∀ r ∈ reads, r ≠ []) (hcut : reads.flatten = encodings.flatten)
    (hn : reads.length < n) :
    (recvCalls .new n (reads.map .data) []).2 ≠ none ∧
    ((recvCalls .new n (reads.map .data) []).1 = frames ↔ Paced frames reads) := by
  refine ⟨recvCalls_ends n _ [] (by rw [List.length_map]; exact hn), ?_⟩
  rw [mapM_encode hwf] at henc
  have hcat : [] ++ reads.flatten = framing.concat frames := by
    rw [List.nil_append, hcut, ← Except.ok.inj henc]
    rfl
  rw [recvCalls_eq_iff reads frames [] n hwf hne hcat hn, List.length_nil, pacedFrom_zero]

/-- A HELLO frame with nothing in it. -/
def helloFrame : Frame := .new (.new .hello 7 0 0) [] []

theorem helloFrame_wellFormed : helloFrame.WellFormed :=
  { fast := ⟨rfl, by decide, rfl, by decide⟩, hint := by decide, metaRaw := by decide,
    size := by decide }

/-- One frame in each of two reads is paced, and both come out. -/
theorem reads_deliver_all_two_reads :
    (recvCalls .new 3 ([helloFrame.bytes, helloFrame.bytes].map .data) []).1
      = [helloFrame, helloFrame] := by
  have hwf : ∀ f ∈ [helloFrame, helloFrame], f.WellFormed := by
    intro f hf
    obtain rfl : f = helloFrame := by simpa using hf
    exact helloFrame_wellFormed
  have hne : ∀ r ∈ [helloFrame.bytes, helloFrame.bytes], r ≠ [] := by
    intro r hr
    obtain rfl : r = helloFrame.bytes := by simpa using hr
    exact helloFrame.bytes_ne_nil
  have hpaced : Paced [helloFrame, helloFrame] [helloFrame.bytes, helloFrame.bytes] := by
    intro k hk
    have hk' : k ≤ 2 := hk
    interval_cases k <;> decide +kernel
  exact (reads_deliver_all hwf (mapM_encode hwf) hne rfl (by decide)).2.mpr hpaced

/-- Two frames in one read, then EOF: the second frame is in the buffer, and the
next call reads zero bytes and fails without looking there. -/
theorem second_frame_lost_in_one_read :
    (∀ f ∈ [helloFrame, helloFrame], f.WellFormed) ∧
    [helloFrame, helloFrame].mapM (fun f => f.encode defaultMaxFrameSize)
      = .ok [helloFrame.bytes, helloFrame.bytes] ∧
    [helloFrame.bytes ++ helloFrame.bytes].flatten
      = [helloFrame.bytes, helloFrame.bytes].flatten ∧
    recvCalls .new 2 [.data (helloFrame.bytes ++ helloFrame.bytes)] []
      = ([helloFrame], some .eof) := by
  have hwf : ∀ f ∈ [helloFrame, helloFrame], f.WellFormed := by
    intro f hf
    obtain rfl : f = helloFrame := by simpa using hf
    exact helloFrame_wellFormed
  refine ⟨hwf, mapM_encode hwf, by simp, ?_⟩
  have hne : helloFrame.bytes ++ helloFrame.bytes ≠ [] := by simp [helloFrame.bytes_ne_nil]
  have hdec : FrameDecoder.new.decode (helloFrame.bytes ++ helloFrame.bytes)
      = (.ok (some helloFrame), helloFrame.bytes) :=
    framing.decode_encode helloFrame helloFrame.bytes helloFrame_wellFormed
  rw [recvCalls_data hne, List.nil_append, hdec]
  rfl

end MeshCore.Session
