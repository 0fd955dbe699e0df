import MeshCore.Wire.Interleaving

/-!
# Large messages over a byte stream

A message above the frame size is cut into chunks, the chunks of several messages and other
frames are written to one connection in any order that keeps each message's own, the bytes
arrive in pieces cut anywhere, and the frames the decoder finds are added to a reassembler.
It returns the payload of every message, once, and nothing else (`chunked_transfer`).

The chunks are frames the decoder takes, as `DEFAULT_CHUNK_SIZE` leaves room for the header
and the metadata (`Chunker.frame_wellFormed`). What is returned is found message by message:
the calls for one of them and all others do not interfere (`Reassembler.addChunks_filter`).
-/

namespace MeshCore.Wire

open MeshCore.Lib

/-! ## Chunks as frames -/

namespace Chunker

/-- A chunk of at most `DEFAULT_CHUNK_SIZE` bytes is a frame that every node can decode. -/
theorem frame_wellFormed {header : FastHeader} (h : header.WellFormed)
    (hhint : header.hdrHintLen = 0) (last : Bool) {data : Bytes}
    (hsize : data.length ≤ defaultChunkSize) : (frame header last data).WellFormed := by
  have hchunked : (header.flags.union .chunked).Defined := h.flags.union (by decide)
  have hfast : (frame header last data).fast.WellFormed := by
    cases last with
    | false => exact ⟨h.ver, hchunked, h.reserved0, h.ttl⟩
    | true => exact ⟨h.ver, hchunked.union (by decide), h.reserved0, h.ttl⟩
  have hno : (frame header last data).fast.hdrHintLen = 0 := by
    cases last with
    | false => exact hhint
    | true => exact hhint
  have hmeta : (frame header last data).metaRaw.length = 2 := rfl
  have hlen : (frame header last data).encodedSize = 58 + data.length := by
    unfold Frame.encodedSize
    rw [hmeta]
    rfl
  refine { fast := hfast, hint := hno, metaRaw := ?_, size := ?_ }
  · rw [hmeta]
    decide
  · rw [hlen]
    unfold defaultChunkSize at hsize
    unfold defaultMaxFrameSize at hsize ⊢
    omega

end Chunker

/-- An order in which the chunks of some messages are written to one connection, with other
frames between them: each message's chunks are there in their own order, and no others. -/
structure Interleaved (c : Chunker) (messages : List Message) (frames : List Frame) : Prop where
  own : ∀ m ∈ messages,
    (frames.filter fun f => f.IsChunkOf m.header.msgId) = c.chunkMessage m.header m.payload
  only : ∀ f ∈ frames, f.fast.flags.contains .chunked = true →
    ∃ m ∈ messages, f.fast.msgId = m.header.msgId

/-- A message the chunker is made for: its header is one a decoder takes, without a hint and
not marked as the end of a message, and its payload is not empty. -/
structure Message.Chunkable (m : Message) : Prop where
  header : m.header.WellFormed
  noHint : m.header.hdrHintLen = 0
  noEnd : m.header.flags.contains .chunkEnd = false
  payload : m.payload ≠ []

namespace Interleaved

variable {c : Chunker} {messages : List Message} {frames : List Frame}

/-- With the chunks of one message taken out, the others are interleaved as before. -/
theorem tail {m : Message} (h : Interleaved c (m :: messages) frames)
    (hids : m.header.msgId ∉ messages.map fun m => m.header.msgId) :
    Interleaved c messages (frames.filter fun f => ¬ f.IsChunkOf m.header.msgId) := by
  constructor
  · intro m' hm'
    rw [← h.own m' (List.mem_cons_of_mem _ hm'), List.filter_filter]
    refine List.filter_congr fun f _ => ?_
    -- a chunk of the one message is no chunk of the other
    have hne : m'.header.msgId ≠ m.header.msgId := fun heq =>
      hids (List.mem_map.mpr ⟨m', hm', heq⟩)
    by_cases hf : f.IsChunkOf m'.header.msgId
    · have hnot : ¬ f.IsChunkOf m.header.msgId := fun hf' => hne (hf.2.symm.trans hf'.2)
      simp [hf, hnot]
    · simp [hf]
  · intro f hf hc
    obtain ⟨hmem, hnot⟩ := List.mem_filter.mp hf
    obtain ⟨m', hm', hid⟩ := h.only f hmem hc
    rcases List.mem_cons.mp hm' with rfl | hm'
    · exact absurd ⟨hc, hid⟩ (of_decide_eq_true hnot)
    · exact ⟨m', hm', hid⟩

/-- Every frame on the connection is one that a decoder takes, if those that are no chunks
are. -/
theorem wellFormed (h : Interleaved c messages frames)
    (hm : ∀ m ∈ messages, m.Chunkable) (hsize : c.chunkSize ≤ defaultChunkSize)
    (hother : ∀ f ∈ frames, f.fast.flags.contains .chunked = false → f.WellFormed) :
    ∀ f ∈ frames, f.WellFormed := by
  intro f hf
  cases hc : f.fast.flags.contains .chunked with
  | false => exact hother f hf hc
  | true =>
    obtain ⟨m, hmem, hid⟩ := h.only f hf hc
    have hchunk : f ∈ c.chunkMessage m.header m.payload := by
      rw [← h.own m hmem]
      exact List.mem_filter.mpr ⟨hf, decide_eq_true ⟨hc, hid⟩⟩
    rw [Chunker.chunkMessage_eq c _ _ (hm m hmem).payload] at hchunk
    obtain ⟨k, -, rfl⟩ := List.mem_map.mp hchunk
    refine Chunker.frame_wellFormed (hm m hmem).header (hm m hmem).noHint _ ?_
    exact Nat.le_trans (List.length_take_le ..) hsize

end Interleaved

/-! ## What is returned -/

/-- What a sequence of calls returns. -/
def returnedBy (calls : List (Frame × Option Bytes)) : List Bytes := calls.filterMap Prod.snd

/-- Only the last call for a message returns one. -/
theorem returnedBy_of_map {calls : List (Frame × Option Bytes)} {n : Nat} {payload : Bytes}
    (h : calls.map Prod.snd = List.replicate n none ++ [some payload]) :
    returnedBy calls = [payload] := by
  have hmap : returnedBy calls = (calls.map Prod.snd).filterMap id := by
    rw [List.filterMap_map]
    rfl
  rw [hmap, h, List.filterMap_append, List.filterMap_replicate_of_none rfl]
  rfl

namespace Reassembler

/-- Frames that are no chunks return nothing, and change nothing. -/
theorem addChunks_of_not_chunked {frames : List Frame} (r : Reassembler)
    (h : ∀ f ∈ frames, f.fast.flags.contains .chunked = false) :
    returnedBy (r.addChunks frames).1 = [] ∧ (r.addChunks frames).2 = r := by
  induction frames with
  | nil => exact ⟨rfl, rfl⟩
  | cons f frames ih =>
    have hadd := addChunk_of_not_chunked (h f (List.mem_cons_self ..)) r
    obtain ⟨hreturned, hr⟩ := ih fun g hg => h g (List.mem_cons_of_mem _ hg)
    constructor
    · show returnedBy ((f, (r.addChunk f).1) :: ((r.addChunk f).2.addChunks frames).1) = []
      rw [hadd]
      exact hreturned
    · show ((r.addChunk f).2.addChunks frames).2 = r
      rw [hadd]
      exact hr

/-- **Many messages at once.** A reassembler that has nothing of the messages returns the
payload of each of them once, and nothing else, and is as it was before. -/
theorem addChunks_interleaved {c : Chunker} {messages : List Message} {frames : List Frame}
    {r : Reassembler} (hm : ∀ m ∈ messages, m.Chunkable)
    (hids : (messages.map fun m => m.header.msgId).Nodup) (h : Interleaved c messages frames)
    (hr : ∀ m ∈ messages, r.sessions.lookup m.header.msgId = none) :
    (returnedBy (r.addChunks frames).1).Perm (messages.map Message.payload) ∧
      ∀ id, (r.addChunks frames).2.sessions.lookup id = r.sessions.lookup id := by
  induction messages generalizing frames with
  | nil =>
    have hnone : ∀ f ∈ frames, f.fast.flags.contains .chunked = false := by
      intro f hf
      refine eq_false_of_ne_true fun hc => ?_
      obtain ⟨m, hmem, -⟩ := h.only f hf hc
      exact absurd hmem List.not_mem_nil
    obtain ⟨hreturned, hsame⟩ := addChunks_of_not_chunked r hnone
    exact ⟨hreturned ▸ List.Perm.nil, fun id => by rw [hsame]⟩
  | cons m messages ih =>
    obtain ⟨hnot, hids⟩ := List.nodup_cons.mp hids
    have hself : m ∈ m :: messages := List.mem_cons_self ..
    -- the calls for this message, and all others
    have hkeep : ∀ f : Frame, f.fast.flags.contains .chunked = true →
        (f.IsChunkOf m.header.msgId ↔ f.fast.msgId = m.header.msgId) := fun f hc => and_iff_right hc
    have hsame : ∀ {ids}, r.SameOn ids r := fun _ _ => rfl
    obtain ⟨hown, hownEntry⟩ := addChunks_filter (· = m.header.msgId) _ hkeep hsame frames
    obtain ⟨hother, hotherEntry⟩ := addChunks_filter (· ≠ m.header.msgId) _
      (fun f hc => not_congr (hkeep f hc)) hsame frames
    rw [h.own m hself] at hown hownEntry
    obtain ⟨hresults, hgone⟩ :=
      addChunks_chunkMessage c (hm m hself).noEnd (hm m hself).payload (hr m hself)
    obtain ⟨hrest, hentries⟩ := ih (fun m' hm' => hm m' (List.mem_cons_of_mem _ hm')) hids
      (h.tail hnot) fun m' hm' => hr m' (List.mem_cons_of_mem _ hm')
    constructor
    · rw [← hother] at hrest
      have hfirst : returnedBy ((r.addChunks frames).1.filter fun call =>
          call.1.IsChunkOf m.header.msgId) = [m.payload] := by
        rw [hown]
        exact returnedBy_of_map hresults
      have hsplit := (List.filter_append_perm
        (fun call : Frame × Option Bytes => decide (call.1.IsChunkOf m.header.msgId))
        (r.addChunks frames).1).filterMap Prod.snd
      rw [List.filterMap_append] at hsplit
      refine hsplit.symm.trans ?_
      have hnots : ((r.addChunks frames).1.filter fun call =>
          !decide (call.1.IsChunkOf m.header.msgId))
          = (r.addChunks frames).1.filter fun call => decide ¬ call.1.IsChunkOf m.header.msgId :=
        List.filter_congr fun call _ => (decide_not ..).symm
      rw [hnots]
      exact List.Perm.append (List.Perm.of_eq hfirst) hrest
    · intro id
      by_cases hid : id = m.header.msgId
      · rw [hid, hr m hself]
        exact (hownEntry _ rfl).trans hgone
      · exact (hotherEntry id hid).trans (hentries id)

end Reassembler

/-- **Chunked transfer.** Messages with different IDs are cut into chunks, which are written
in any order that keeps each message's own, with other frames between them. However the bytes
are cut on the way, the decoder finds these frames and no others, and the reassembler they
are added to returns the payload of every message once, nothing else, and is empty again. -/
theorem chunked_transfer (c : Chunker) (messages : List Message) (frames : List Frame)
    (pieces : List Bytes) (hsize : c.chunkSize ≤ defaultChunkSize)
    (hm : ∀ m ∈ messages, m.Chunkable) (hids : (messages.map fun m => m.header.msgId).Nodup)
    (h : Interleaved c messages frames)
    (hother : ∀ f ∈ frames, f.fast.flags.contains .chunked = false → f.WellFormed)
    (hpieces : pieces.flatten = (frames.map Frame.bytes).flatten) :
    framing.feed pieces [] = (frames, .needMore, []) ∧
      (returnedBy (Reassembler.new.addChunks (framing.feed pieces []).1).1).Perm
        (messages.map Message.payload) ∧
      ∀ id, (Reassembler.new.addChunks (framing.feed pieces []).1).2.sessions.lookup id = none := by
  have hfeed := framing.feed_concat frames pieces (h.wellFormed hm hsize hother) hpieces
  rw [hfeed]
  obtain ⟨hreturned, hentries⟩ :=
    Reassembler.addChunks_interleaved (r := .new) hm hids h fun _ _ => rfl
  exact ⟨rfl, hreturned, hentries⟩

/-- Two messages, and a frame that is no chunk, on one connection; the bytes arrive in two
pieces. -/
theorem chunked_transfer_pair :
    let c : Chunker := { chunkSize := 2, pos := by decide }
    let long : Message := ⟨.new .data 1 9 7, [1, 2, 3]⟩
    let short : Message := ⟨.new .data 1 9 8, [4]⟩
    let chunks := c.chunkMessage long.header long.payload
    let frames := chunks.take 1 ++ Frame.new (.new .ping 1 9 0) [] []
      :: c.chunkMessage short.header short.payload ++ chunks.drop 1
    let bytes := (frames.map Frame.bytes).flatten
    let (decoded, _) := framing.feed [bytes.take 70, bytes.drop 70] []
    decoded = frames ∧
      (returnedBy (Reassembler.new.addChunks decoded).1).Perm [[1, 2, 3], [4]] := by
  intro c long short chunks frames bytes
  have hchunkable : ∀ m ∈ [long, short], m.Chunkable := by
    intro m hm
    rcases List.mem_pair.mp hm with rfl | rfl
    · exact ⟨⟨rfl, by decide, rfl, by decide⟩, rfl, by decide, by decide⟩
    · exact ⟨⟨rfl, by decide, rfl, by decide⟩, rfl, by decide, by decide⟩
  have hinterleaved : Interleaved c [long, short] frames :=
    ⟨by decide +kernel, by decide +kernel⟩
  have hother : ∀ f ∈ frames, f.fast.flags.contains .chunked = false → f.WellFormed := by
    have hping : ∀ f ∈ frames, f.fast.flags.contains .chunked = false →
        f = Frame.new (.new .ping 1 9 0) [] [] := by decide +kernel
    intro f hf hc
    rw [hping f hf hc]
    exact { fast := ⟨rfl, by decide, rfl, by decide⟩, hint := by decide, metaRaw := by decide,
            size := by decide }
  obtain ⟨hfeed, hreturned, -⟩ := chunked_transfer c [long, short] frames
    [bytes.take 70, bytes.drop 70] (by decide) hchunkable (by decide) hinterleaved hother
    (by simp [bytes])
  exact ⟨congrArg Prod.fst hfeed, hreturned⟩

end MeshCore.Wire
