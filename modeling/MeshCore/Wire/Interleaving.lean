import MeshCore.Wire.Chunk

/-!
# Chunk, then reassemble

`chunk_message` cuts a payload into chunks that are not empty and not above the
chunk size, and marks the last (`Chunker.chunkMessage_spec`). Added in this order
they give the payload back, whatever other `add_chunk` calls come between them
(`chunk_then_reassemble`).

The second part rests on `addChunks_filter`: a reassembler keeps apart what it has
for different message IDs, so the calls for some of them return what they return
when the others are left out. It is used twice, for the message ID of the chunks and
for everything else.

Mirroring notes:
- Sizes are naturals. `payload.len() + chunk_size - 1` does not wrap: a chunk size
  is `DEFAULT_CHUNK_SIZE`, and a payload has less than `2^63` bytes.
-/

namespace MeshCore.Wire

open MeshCore.Lib

/-! ## The chunks -/

namespace Chunker

theorem frame_isChunkOf (header : FastHeader) (last : Bool) (data : Bytes) :
    (frame header last data).IsChunkOf header.msgId := by
  cases last with
  | false => exact ⟨Flags.contains_union_right .., rfl⟩
  | true => exact ⟨Flags.contains_union_left _ (Flags.contains_union_right ..), rfl⟩

/-- Only the last chunk ends the message. -/
theorem frame_chunkEnd {header : FastHeader} (h : header.flags.contains .chunkEnd = false)
    (last : Bool) (data : Bytes) :
    (frame header last data).fast.flags.contains .chunkEnd = last := by
  cases last with
  | false =>
    show (header.flags.union .chunked).contains .chunkEnd = false
    rw [Flags.contains_union_of_disjoint (by decide), h]
  | true => exact Flags.contains_union_right ..

variable (c : Chunker) {payload : Bytes}

theorem totalChunks_pos (h : payload ≠ []) : 0 < c.totalChunks payload := by
  have hlen := List.length_pos_iff.mpr h
  exact Nat.div_pos (by omega) c.pos

/-- Every chunk starts before the end of the payload. -/
theorem chunkData_ne_nil {k : Nat} (hk : k < c.totalChunks payload) :
    c.chunkData payload k ≠ [] := by
  have hpos := c.pos
  have hmul : (k + 1) * c.chunkSize ≤ payload.length + c.chunkSize - 1 := by
    refine Nat.le_trans (Nat.mul_le_mul_right _ hk) ?_
    exact Nat.div_mul_le_self ..
  rw [Nat.add_mul, Nat.one_mul] at hmul
  refine List.ne_nil_of_length_pos ?_
  unfold chunkData
  rw [List.length_take, List.length_drop]
  omega

/-- The last chunk stands alone at the end, behind those that do not end the
message. -/
theorem chunkMessage_split (header : FastHeader) (h : payload ≠ []) :
    ∃ n, c.totalChunks payload = n + 1 ∧ c.chunkMessage header payload
      = (List.range n).map (fun k => frame header false (c.chunkData payload k))
        ++ [frame header true (c.chunkData payload n)] := by
  obtain ⟨n, hn⟩ := Nat.exists_eq_add_one_of_ne_zero (c.totalChunks_pos h).ne'
  refine ⟨n, hn, ?_⟩
  rw [chunkMessage_eq c header payload h, hn, List.range_succ, List.map_append, List.map_singleton,
    Nat.add_sub_cancel, decide_eq_true rfl]
  refine congrArg (· ++ _) (List.map_congr_left fun k hk => ?_)
  rw [decide_eq_false (Nat.ne_of_lt (List.mem_range.mp hk))]

/-- **What `chunk_message` yields.** Chunks of the message, none empty and none above
the chunk size, the last and no other marked as the end; joined, they are the
payload. -/
theorem chunkMessage_spec {header : FastHeader} (hend : header.flags.contains .chunkEnd = false)
    (h : payload ≠ []) :
    (∀ f ∈ c.chunkMessage header payload, f.IsChunkOf header.msgId ∧ f.payloadOrCipher ≠ [] ∧
      f.payloadOrCipher.length ≤ c.chunkSize) ∧
    (c.chunkMessage header payload).map (fun f => f.fast.flags.contains .chunkEnd)
      = List.replicate ((c.chunkMessage header payload).length - 1) false ++ [true] ∧
    ((c.chunkMessage header payload).map Frame.payloadOrCipher).flatten = payload := by
  refine ⟨?_, ?_, flatten_chunkMessage ..⟩
  · intro f hf
    rw [chunkMessage_eq c header payload h] at hf
    obtain ⟨k, hk, rfl⟩ := List.mem_map.mp hf
    refine ⟨frame_isChunkOf .., c.chunkData_ne_nil (List.mem_range.mp hk), ?_⟩
    exact List.length_take_le ..
  · obtain ⟨n, -, hsplit⟩ := c.chunkMessage_split header h
    rw [hsplit, List.map_append, List.map_map, List.map_singleton, frame_chunkEnd hend,
      List.length_append, List.length_map, List.length_range, List.length_singleton,
      Nat.add_sub_cancel]
    refine congrArg (· ++ _) (List.eq_replicate_iff.mpr ⟨by simp, fun b hb => ?_⟩)
    obtain ⟨k, -, rfl⟩ := List.mem_map.mp hb
    exact frame_chunkEnd hend ..

end Chunker

/-! ## Sequences of calls -/

namespace Reassembler

/-- A sequence of `add_chunk` calls: the frames, each with what its call returned, and
the reassembler after them. -/
def addChunks (r : Reassembler) (frames : List Frame) :
    List (Frame × Option Bytes) × Reassembler :=
  runCalls addChunk r frames

/-- The two have the same entries for the message IDs in `ids`. -/
def SameOn (ids : UInt64 → Prop) (r r' : Reassembler) : Prop :=
  ∀ id, ids id → r.sessions.lookup id = r'.sessions.lookup id

theorem addChunk_of_not_chunked {f : Frame} (h : f.fast.flags.contains .chunked = false)
    (r : Reassembler) : r.addChunk f = (none, r) :=
  if_pos h

/-- A chunk that does not end the message is put with the others. -/
theorem addChunk_open {f : Frame} {msgId : UInt64} (h : f.IsChunkOf msgId)
    (hend : f.fast.flags.contains .chunkEnd = false) (r : Reassembler) :
    r.addChunk f = (none,
      ⟨r.sessions.insert msgId ((r.sessions.lookup msgId).getD [] ++ [f.payloadOrCipher])⟩) := by
  obtain ⟨hc, rfl⟩ := h
  unfold addChunk
  rw [if_neg (by simp [hc])]
  exact if_neg (by simp [hend])

/-- The last chunk takes the others out. -/
theorem addChunk_end {f : Frame} {msgId : UInt64} (h : f.IsChunkOf msgId)
    (hend : f.fast.flags.contains .chunkEnd = true) (r : Reassembler) :
    r.addChunk f = (some ((r.sessions.lookup msgId).getD [] ++ [f.payloadOrCipher]).flatten,
      ⟨(r.sessions.insert msgId
        ((r.sessions.lookup msgId).getD [] ++ [f.payloadOrCipher])).erase msgId⟩) := by
  obtain ⟨hc, rfl⟩ := h
  unfold addChunk
  rw [if_neg (by simp [hc])]
  exact if_pos hend

/-- A chunk touches the entry of its message ID only. -/
theorem addChunk_lookup {r : Reassembler} {f : Frame} {id : UInt64} (h : id ≠ f.fast.msgId) :
    (r.addChunk f).2.sessions.lookup id = r.sessions.lookup id := by
  cases hc : f.fast.flags.contains .chunked with
  | false => rw [addChunk_of_not_chunked hc]
  | true =>
    cases hend : f.fast.flags.contains .chunkEnd with
    | true =>
      rw [addChunk_end ⟨hc, rfl⟩ hend]
      exact (AList.lookup_erase_ne h).trans (AList.lookup_insert_ne h)
    | false =>
      rw [addChunk_open ⟨hc, rfl⟩ hend]
      exact AList.lookup_insert_ne h

/-- What a chunk returns, and the entry it leaves, depend on the entry it finds. -/
theorem addChunk_congr {r r' : Reassembler} {f : Frame} {msgId : UInt64} (hf : f.IsChunkOf msgId)
    (h : r.sessions.lookup msgId = r'.sessions.lookup msgId) :
    (r.addChunk f).1 = (r'.addChunk f).1 ∧
      (r.addChunk f).2.sessions.lookup msgId = (r'.addChunk f).2.sessions.lookup msgId := by
  cases hend : f.fast.flags.contains .chunkEnd with
  | true =>
    rw [addChunk_end hf hend, addChunk_end hf hend, h]
    exact ⟨rfl, by rw [AList.lookup_erase, AList.lookup_erase]⟩
  | false =>
    rw [addChunk_open hf hend, addChunk_open hf hend, h]
    exact ⟨rfl, by rw [AList.lookup_insert, AList.lookup_insert]⟩

/-- **Calls for different messages do not interfere.** `keep` tells the chunks of the
messages in `ids` from all others. -/
theorem addChunks_filter (ids : UInt64 → Prop) (keep : Frame → Prop) [DecidablePred keep]
    (hkeep : ∀ f, f.fast.flags.contains .chunked = true → (keep f ↔ ids f.fast.msgId))
    {r r' : Reassembler} (h : SameOn ids r r') (frames : List Frame) :
    ((r.addChunks frames).1.filter fun call => keep call.1)
        = (r'.addChunks (frames.filter fun f => keep f)).1 ∧
      SameOn ids (r.addChunks frames).2 (r'.addChunks (frames.filter fun f => keep f)).2 := by
  refine runCalls_filter (fun r r' f hsame hf => ?_) (fun r r' f hsame hf => ?_) h frames
  · cases hc : f.fast.flags.contains .chunked with
    | false =>
      rw [addChunk_of_not_chunked hc, addChunk_of_not_chunked hc]
      exact ⟨rfl, hsame⟩
    | true =>
      obtain ⟨hresult, hentry⟩ := addChunk_congr ⟨hc, rfl⟩ (hsame _ ((hkeep f hc).mp hf))
      refine ⟨hresult, fun id hid => ?_⟩
      by_cases heq : id = f.fast.msgId
      · rw [heq]
        exact hentry
      · rw [addChunk_lookup heq, addChunk_lookup heq]
        exact hsame id hid
  · cases hc : f.fast.flags.contains .chunked with
    | false =>
      rw [addChunk_of_not_chunked hc]
      exact hsame
    | true =>
      intro id hid
      rw [addChunk_lookup fun heq => hf ((hkeep f hc).mpr (heq ▸ hid))]
      exact hsame id hid

/-- Chunks that do not end the message are collected. -/
theorem addChunks_collect {msgId : UInt64} {frames : List Frame} (r : Reassembler)
    (h : ∀ f ∈ frames, f.IsChunkOf msgId ∧ f.fast.flags.contains .chunkEnd = false) :
    (r.addChunks frames).1.map Prod.snd = List.replicate frames.length none ∧
      ((r.addChunks frames).2.sessions.lookup msgId).getD []
        = (r.sessions.lookup msgId).getD [] ++ frames.map Frame.payloadOrCipher := by
  induction frames generalizing r with
  | nil => exact ⟨rfl, (List.append_nil _).symm⟩
  | cons f frames ih =>
    obtain ⟨hf, hend⟩ := h f (List.mem_cons_self ..)
    have hadd := addChunk_open hf hend r
    obtain ⟨hresults, hentry⟩ := ih (r.addChunk f).2 fun g hg => h g (List.mem_cons_of_mem _ hg)
    constructor
    · show (r.addChunk f).1 :: ((r.addChunk f).2.addChunks frames).1.map Prod.snd = _
      rw [hresults, hadd]
      rfl
    · refine Eq.trans hentry ?_
      rw [hadd]
      dsimp only
      rw [AList.lookup_insert, Option.getD_some, List.append_assoc]
      rfl

/-- The chunks of a message, added one after the other. -/
theorem addChunks_chunkMessage (c : Chunker) {header : FastHeader} {payload : Bytes}
    (hend : header.flags.contains .chunkEnd = false) (hne : payload ≠ []) {r : Reassembler}
    (hr : r.sessions.lookup header.msgId = none) :
    (r.addChunks (c.chunkMessage header payload)).1.map Prod.snd
        = List.replicate ((c.chunkMessage header payload).length - 1) none ++ [some payload] ∧
      (r.addChunks (c.chunkMessage header payload)).2.sessions.lookup header.msgId = none := by
  have hflatten := c.flatten_chunkMessage header payload
  obtain ⟨n, -, hsplit⟩ := c.chunkMessage_split header hne
  rw [hsplit] at hflatten ⊢
  generalize hfront : (List.range n).map (fun k => Chunker.frame header false
    (c.chunkData payload k)) = front at hflatten ⊢
  generalize hlast : Chunker.frame header true (c.chunkData payload n) = last at hflatten ⊢
  have hopen : ∀ f ∈ front, f.IsChunkOf header.msgId ∧ f.fast.flags.contains .chunkEnd = false := by
    intro f hf
    rw [← hfront] at hf
    obtain ⟨k, -, rfl⟩ := List.mem_map.mp hf
    exact ⟨Chunker.frame_isChunkOf .., Chunker.frame_chunkEnd hend ..⟩
  obtain ⟨hresults, hentry⟩ := addChunks_collect r hopen
  rw [hr, Option.getD_none, List.nil_append] at hentry
  -- the last chunk finds the others, and takes the entry away
  have hadd := addChunk_end (hlast ▸ Chunker.frame_isChunkOf .. : last.IsChunkOf header.msgId)
    (hlast ▸ Chunker.frame_chunkEnd hend ..) (r.addChunks front).2
  rw [hentry, ← List.map_singleton, ← List.map_append, hflatten] at hadd
  have hrun : r.addChunks (front ++ [last])
      = ((r.addChunks front).1 ++ [(last, ((r.addChunks front).2.addChunk last).1)],
        ((r.addChunks front).2.addChunk last).2) := runCalls_append ..
  rw [hrun, hadd, List.map_append, hresults, List.length_append, List.length_singleton,
    Nat.add_sub_cancel]
  exact ⟨rfl, AList.lookup_erase _ _⟩

end Reassembler

/-! ## Under interleaving -/

/-- **Chunk, then reassemble.** A payload that is cut into chunks comes back with the
last of them, in whatever way other calls are interleaved: calls for other message
IDs, and for frames that are no chunks. These return what they return without the
chunks, and leave the same entries. -/
theorem chunk_then_reassemble (c : Chunker) (header : FastHeader) (payload : Bytes)
    (hend : header.flags.contains .chunkEnd = false) (hne : payload ≠ []) :
    let chunks := c.chunkMessage header payload
    ((∀ f ∈ chunks, f.fast.flags.contains .chunked = true ∧ f.payloadOrCipher ≠ [] ∧
        f.payloadOrCipher.length ≤ c.chunkSize) ∧
      chunks.map (fun f => f.fast.flags.contains .chunkEnd)
        = List.replicate (chunks.length - 1) false ++ [true] ∧
      (chunks.map Frame.payloadOrCipher).flatten = payload) ∧
    ∀ (r : Reassembler) (frames : List Frame), r.sessions.lookup header.msgId = none →
      (frames.filter fun f => f.IsChunkOf header.msgId) = chunks →
      let (calls, r') := r.addChunks frames
      let (otherCalls, r₀) := r.addChunks (frames.filter fun f => ¬ f.IsChunkOf header.msgId)
      (calls.filter fun call => call.1.IsChunkOf header.msgId).map Prod.snd
          = List.replicate (chunks.length - 1) none ++ [some payload] ∧
        r'.sessions.lookup header.msgId = none ∧
        (calls.filter fun call => ¬ call.1.IsChunkOf header.msgId) = otherCalls ∧
        ∀ id, r'.sessions.lookup id = r₀.sessions.lookup id := by
  intro chunks
  obtain ⟨hchunks, hmarks, hflatten⟩ := c.chunkMessage_spec hend hne
  refine ⟨⟨fun f hf => ⟨(hchunks f hf).1.1, (hchunks f hf).2⟩, hmarks, hflatten⟩, ?_⟩
  intro r frames hr hframes
  -- a frame is kept by its message ID, if it is a chunk at all
  have hkeep : ∀ f : Frame, f.fast.flags.contains .chunked = true →
      (f.IsChunkOf header.msgId ↔ f.fast.msgId = header.msgId) := fun f hc => and_iff_right hc
  have hself : ∀ {ids}, r.SameOn ids r := fun _ _ => rfl
  obtain ⟨hown, hownEntry⟩ :=
    Reassembler.addChunks_filter (· = header.msgId) _ hkeep hself frames
  obtain ⟨hother, hotherEntry⟩ := Reassembler.addChunks_filter (· ≠ header.msgId) _
    (fun f hc => not_congr (hkeep f hc)) hself frames
  rw [hframes] at hown hownEntry
  obtain ⟨hresults, hgone⟩ := Reassembler.addChunks_chunkMessage c hend hne hr
  have hnone := (hownEntry header.msgId rfl).trans hgone
  refine ⟨(congrArg (List.map Prod.snd) hown).trans hresults, hnone, hother, fun id => ?_⟩
  by_cases hid : id = header.msgId
  · -- the other calls do not open an entry for the message
    obtain ⟨-, hclosed⟩ := Reassembler.addChunks_filter (· = header.msgId) _ hkeep hself
      (frames.filter fun f => ¬ f.IsChunkOf header.msgId)
    have hnil : ((frames.filter fun f => ¬ f.IsChunkOf header.msgId).filter fun f =>
        f.IsChunkOf header.msgId) = [] :=
      List.filter_eq_nil_iff.mpr fun f hf => by simpa using (List.mem_filter.mp hf).2
    rw [hnil] at hclosed
    subst hid
    exact hnone.trans ((hclosed header.msgId rfl).trans hr).symm
  · exact hotherEntry id hid

/-- A message of two chunks, with a frame without `CHUNKED` and the chunk of another
message between them. -/
theorem chunk_then_reassemble_between :
    let c : Chunker := { chunkSize := 2, pos := by decide }
    let header := FastHeader.new .data 1 9 7
    let two := c.chunkMessage header [1, 2, 3]
    let others := Frame.new header [] [] :: c.chunkMessage (.new .data 1 9 8) [4]
    let (calls, r') := Reassembler.new.addChunks (two.take 1 ++ others ++ two.drop 1)
    let (otherCalls, r₀) := Reassembler.new.addChunks others
    (calls.filter fun call => call.1.IsChunkOf 7).map Prod.snd = [none, some [1, 2, 3]] ∧
      (calls.filter fun call => ¬ call.1.IsChunkOf 7) = otherCalls ∧
      ∀ id, r'.sessions.lookup id = r₀.sessions.lookup id := by
  intro c header two others
  obtain ⟨-, hrun⟩ := chunk_then_reassemble c header [1, 2, 3] (by decide) (by decide)
  obtain ⟨hown, -, hother, hentries⟩ := hrun .new (two.take 1 ++ others ++ two.drop 1) rfl
    (by decide +kernel)
  rw [show (two.take 1 ++ others ++ two.drop 1).filter (fun f => ¬ f.IsChunkOf header.msgId)
    = others by decide +kernel] at hother hentries
  exact ⟨hown.trans (by decide +kernel), hother, hentries⟩

end MeshCore.Wire
