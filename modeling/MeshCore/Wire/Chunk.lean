import MeshCore.Wire.Frame
import MeshCore.Lib.Collections
import MeshCore.Lib.Runs

/-!
# Chunks of large messages (`mesh-wire/src/chunk.rs`)

`Chunker` cuts a payload into frames that carry the message's header, and
`Reassembler` joins the payloads of the frames of one message ID in the order in
which they come, until a frame with `CHUNK_END` is among them. It does not look
at the source node, which message IDs are relative to, nor does a frame say
which chunk it is or how many there are: `ChunkMeta` has fields for both, but the
chunker writes empty metadata.

`Reassembly` is a run of `add_chunk` calls. What is pending for a message ID are
the frames with it since the last one that ended a message (`Reassembly.Inv`).
Hence every message that is returned is the whole payload of a message that was
cut, if each frame with `CHUNK_END` comes when the other chunks of its message,
in order, are what is pending for its ID (`returned_whole`). One that overtakes
another chunk returns part of a message (`last_chunk_first`).

Mirroring notes:
- A chunk size is positive: `chunk_size` is private, and `Chunker::new` the only
  constructor.
- `ChunkMeta` itself is left out: no function builds or reads one.
-/

namespace MeshCore.Wire

open MeshCore.Lib

/-! ## Chunking -/

/-- `DEFAULT_CHUNK_SIZE`. -/
def defaultChunkSize : Nat := defaultMaxFrameSize - 1024

/-- `Chunker`. -/
structure Chunker where
  chunkSize : Nat
  pos : 0 < chunkSize

namespace Chunker

/-- `Chunker::new`. -/
def new : Chunker := { chunkSize := defaultChunkSize, pos := by decide }

/-- The frame of a chunk. -/
def frame (fastHeader : FastHeader) (last : Bool) (chunkData : Bytes) : Frame :=
  let header := { fastHeader with flags := fastHeader.flags.union .chunked }
  let header := if last then { header with flags := header.flags.union .chunkEnd } else header
  -- the metadata is `{}`
  let metaRaw := [0x7B, 0x7D]
  Frame.new header metaRaw chunkData

/-- The number of chunks. -/
def totalChunks (c : Chunker) (payload : Bytes) : Nat :=
  (payload.length + c.chunkSize - 1) / c.chunkSize

/-- The body of the loop of `chunk_message`: the frames so far, and the offset. -/
def addFrame (c : Chunker) (fastHeader : FastHeader) (payload : Bytes) (s : List Frame × Nat)
    (chunkNo : Nat) : List Frame × Nat :=
  let (frames, offset) := s
  let chunkEnd := min (offset + c.chunkSize) payload.length
  let chunkData := (payload.take chunkEnd).drop offset
  (frames ++ [frame fastHeader (chunkNo = c.totalChunks payload - 1) chunkData], chunkEnd)

/-- `chunk_message`. -/
def chunkMessage (c : Chunker) (fastHeader : FastHeader) (payload : Bytes) : List Frame :=
  if payload.isEmpty then []
  else ((List.range (c.totalChunks payload)).foldl (c.addFrame fastHeader payload) ([], 0)).1

/-- The bytes of a chunk. -/
def chunkData (c : Chunker) (payload : Bytes) (chunkNo : Nat) : Bytes :=
  (payload.drop (chunkNo * c.chunkSize)).take c.chunkSize

variable (c : Chunker) (fastHeader : FastHeader) (payload : Bytes)

/-- The loop has cut the first chunks off. -/
theorem foldl_addFrame (n : Nat) :
    (List.range n).foldl (c.addFrame fastHeader payload) ([], 0)
      = ((List.range n).map fun k =>
          frame fastHeader (k = c.totalChunks payload - 1) (c.chunkData payload k),
        min (n * c.chunkSize) payload.length) := by
  induction n with
  | zero => simp
  | succ n ih =>
    rw [List.range_succ, List.foldl_append, ih, List.map_append]
    have hend : min (min (n * c.chunkSize) payload.length + c.chunkSize) payload.length
        = min ((n + 1) * c.chunkSize) payload.length := by
      rw [Nat.add_mul, Nat.one_mul]
      omega
    have hdata : (payload.take (min ((n + 1) * c.chunkSize) payload.length)).drop
        (min (n * c.chunkSize) payload.length) = c.chunkData payload n := by
      unfold chunkData
      rw [← List.take_take, List.take_length, List.drop_take, Nat.add_mul, Nat.one_mul]
      rcases Nat.le_total (n * c.chunkSize) payload.length with hle | hle
      · rw [Nat.min_eq_left hle, Nat.add_sub_cancel_left]
      · rw [Nat.min_eq_right hle, List.drop_length, List.drop_eq_nil_of_le hle]
        simp
    show (_ ++ [frame fastHeader _ _], _) = _
    rw [hend, hdata]
    rfl

/-- The chunks of a message, one by one. -/
theorem chunkMessage_eq (h : payload ≠ []) :
    c.chunkMessage fastHeader payload = (List.range (c.totalChunks payload)).map fun k =>
      frame fastHeader (k = c.totalChunks payload - 1) (c.chunkData payload k) := by
  unfold chunkMessage
  rw [if_neg (by simpa using h), foldl_addFrame]

/-- The first chunks, joined, are the front of the payload. -/
theorem flatten_chunkData (n : Nat) :
    ((List.range n).map (c.chunkData payload)).flatten = payload.take (n * c.chunkSize) := by
  induction n with
  | zero => simp
  | succ n ih =>
    rw [List.range_succ, List.map_append, List.flatten_append, ih, Nat.add_mul, Nat.one_mul,
      List.take_add]
    simp [chunkData]

/-- The chunks reach to the end of the payload. -/
theorem length_le_totalChunks : payload.length ≤ c.totalChunks payload * c.chunkSize := by
  have hdiv := Nat.div_add_mod (payload.length + c.chunkSize - 1) c.chunkSize
  have hmod := Nat.mod_lt (payload.length + c.chunkSize - 1) c.pos
  have hpos := c.pos
  unfold totalChunks
  rw [Nat.mul_comm]
  omega

/-- **The chunks of a message, joined, are its payload.** -/
theorem flatten_chunkMessage :
    ((c.chunkMessage fastHeader payload).map Frame.payloadOrCipher).flatten = payload := by
  by_cases h : payload = []
  · rw [h]
    rfl
  · rw [chunkMessage_eq c fastHeader payload h, List.map_map]
    have hpayload : (Frame.payloadOrCipher ∘ fun k =>
        frame fastHeader (k = c.totalChunks payload - 1) (c.chunkData payload k))
        = c.chunkData payload := rfl
    rw [hpayload, flatten_chunkData, List.take_of_length_le (c.length_le_totalChunks payload)]

end Chunker

/-! ## Reassembly -/

/-- `Reassembler`. -/
structure Reassembler where
  sessions : HashMap UInt64 (List Bytes)

/-- `Reassembler::new`. -/
def Reassembler.new : Reassembler := { sessions := ∅ }

/-- `add_chunk`. -/
def Reassembler.addChunk (r : Reassembler) (frame : Frame) : Option Bytes × Reassembler :=
  if frame.fast.flags.contains .chunked = false then (none, r)
  else
    let msgId := frame.fast.msgId
    let chunks := (r.sessions.lookup msgId).getD [] ++ [frame.payloadOrCipher]
    let sessions := r.sessions.insert msgId chunks
    if frame.fast.flags.contains .chunkEnd then
      (some chunks.flatten, { sessions := sessions.erase msgId })
    else (none, { sessions })

/-- The arguments of a `chunk_message` call. -/
structure Message where
  header : FastHeader
  payload : Bytes
  deriving Repr, DecidableEq

/-- A reassembler, the frames that were added to it, and what it has returned. -/
structure Reassembly where
  reassembler : Reassembler
  added : List Frame
  returned : List Bytes

/-- A new reassembler. -/
def Reassembly.new : Reassembly := { reassembler := .new, added := [], returned := [] }

/-- One `add_chunk` call. -/
def Reassembly.step (s : Reassembly) (frame : Frame) : Reassembly :=
  let (message, reassembler) := s.reassembler.addChunk frame
  { reassembler, added := s.added ++ [frame], returned := s.returned ++ message.toList }

/-- A run. -/
def Reassembly.run (s : Reassembly) (frames : List Frame) : Reassembly :=
  frames.foldl Reassembly.step s

/-- The frame is the chunk of some message with this ID. -/
def Frame.IsChunkOf (msgId : UInt64) (f : Frame) : Prop :=
  f.fast.flags.contains .chunked = true ∧ f.fast.msgId = msgId

instance (msgId : UInt64) (f : Frame) : Decidable (f.IsChunkOf msgId) :=
  inferInstanceAs (Decidable (_ ∧ _))

/-- The chunks with this message ID since the last one with `CHUNK_END`. -/
def sinceEnd (msgId : UInt64) (frames : List Frame) : List Frame :=
  ((frames.filter fun f => f.IsChunkOf msgId).reverse.takeWhile fun f =>
    !f.fast.flags.contains .chunkEnd).reverse

/-- If the frame ends a message, it completes the chunks of one of the messages:
they are, in order, the chunks with its ID since the last one that ended a
message, and the frame itself. -/
def Completes (c : Chunker) (messages : List Message) (s : Reassembly) (f : Frame) : Prop :=
  f.fast.flags.contains .chunked = true → f.fast.flags.contains .chunkEnd = true →
    ∃ m ∈ messages, sinceEnd f.fast.msgId s.added ++ [f] = c.chunkMessage m.header m.payload

instance (c : Chunker) (messages : List Message) (s : Reassembly) (f : Frame) :
    Decidable (Completes c messages s f) :=
  inferInstanceAs (Decidable (_ → _ → _))

/-- One more frame. -/
theorem sinceEnd_append (msgId : UInt64) (frames : List Frame) (f : Frame) :
    sinceEnd msgId (frames ++ [f])
      = if f.IsChunkOf msgId then
          if f.fast.flags.contains .chunkEnd then [] else sinceEnd msgId frames ++ [f]
        else sinceEnd msgId frames := by
  unfold sinceEnd
  rw [List.filter_append]
  by_cases hf : f.IsChunkOf msgId
  · rw [if_pos hf, List.filter_cons_of_pos (by simpa using hf), List.filter_nil,
      List.reverse_append, List.reverse_singleton, List.singleton_append]
    cases hend : f.fast.flags.contains .chunkEnd with
    | true => rw [List.takeWhile_cons_of_neg (by simp [hend])]; rfl
    | false => rw [List.takeWhile_cons_of_pos (by simp [hend]), List.reverse_cons]; rfl
  · rw [if_neg hf, List.filter_cons_of_neg (by simpa using hf), List.filter_nil, List.append_nil]

/-- What the reassembler has for a message ID are the chunks since the last one
that ended a message. -/
def Reassembly.Inv (s : Reassembly) : Prop :=
  ∀ msgId, (s.reassembler.sessions.lookup msgId).getD []
    = (sinceEnd msgId s.added).map Frame.payloadOrCipher

/-- What a call returns: the chunks since the last one that ended a message, and
this one. -/
theorem Reassembly.Inv.addChunk {s : Reassembly} (h : s.Inv) (f : Frame) :
    (s.reassembler.addChunk f).1
      = if f.fast.flags.contains .chunked = true ∧ f.fast.flags.contains .chunkEnd = true then
          some ((sinceEnd f.fast.msgId s.added ++ [f]).map Frame.payloadOrCipher).flatten
        else none := by
  unfold Reassembler.addChunk
  cases hc : f.fast.flags.contains .chunked with
  | false => simp
  | true =>
    rw [if_neg (by simp)]
    cases hend : f.fast.flags.contains .chunkEnd with
    | false => simp
    | true =>
      rw [if_pos rfl, if_pos ⟨rfl, rfl⟩, List.map_append, ← h f.fast.msgId]
      rfl

theorem Reassembly.Inv.step {s : Reassembly} (h : s.Inv) (f : Frame) : (s.step f).Inv := by
  intro msgId
  show ((s.reassembler.addChunk f).2.sessions.lookup msgId).getD [] = _
  rw [show (s.step f).added = s.added ++ [f] from rfl, sinceEnd_append]
  unfold Reassembler.addChunk
  cases hc : f.fast.flags.contains .chunked with
  | false =>
    rw [if_pos rfl, if_neg (fun hf : f.IsChunkOf msgId => by simp [hf.1] at hc)]
    exact h msgId
  | true =>
    rw [if_neg (by simp)]
    dsimp only
    by_cases hid : f.fast.msgId = msgId
    · subst hid
      have hf : f.IsChunkOf f.fast.msgId := ⟨hc, rfl⟩
      rw [if_pos hf]
      cases hend : f.fast.flags.contains .chunkEnd with
      | true => simp
      | false => simp [← h f.fast.msgId]
    · -- the chunks of the other messages stay
      rw [if_neg (fun hf : f.IsChunkOf msgId => hid hf.2), ← h msgId]
      have hne : msgId ≠ f.fast.msgId := fun heq => hid heq.symm
      cases hend : f.fast.flags.contains .chunkEnd with
      | true => simp [AList.lookup_erase_ne hne, AList.lookup_insert_ne hne]
      | false => simp [AList.lookup_insert_ne hne]

/-! ## Runs -/

/-- **When only whole messages are returned.** In a run of calls in which every
frame that ends a message completes the chunks of one of the messages, whatever
is returned is the whole payload of one of them. -/
theorem returned_whole (c : Chunker) (messages : List Message) (frames : List Frame)
    (h : Along Reassembly.step (Completes c messages) .new frames) :
    ∀ b ∈ (Reassembly.new.run frames).returned, ∃ m ∈ messages, b = m.payload := by
  have hrun := h.inv (I := fun s => s.Inv ∧ ∀ b ∈ s.returned, ∃ m ∈ messages, b = m.payload) ?_
    ⟨fun _ => rfl, fun b hb => absurd hb List.not_mem_nil⟩
  · exact hrun.2
  · rintro s f ⟨hinv, hreturned⟩ hcompletes
    refine ⟨hinv.step f, fun b hb => ?_⟩
    have hstep : (s.step f).returned = s.returned ++ (s.reassembler.addChunk f).1.toList := rfl
    rw [hstep, hinv.addChunk f] at hb
    rcases List.mem_append.mp hb with hold | hnew
    · exact hreturned b hold
    · split at hnew
      next hend =>
        obtain ⟨m, hm, hchunks⟩ := hcompletes hend.1 hend.2
        refine ⟨m, hm, ?_⟩
        rw [List.mem_singleton.mp hnew, hchunks, Chunker.flatten_chunkMessage]
      next => exact absurd hnew List.not_mem_nil

/-- The chunks of a message of two, with another message between them. -/
def framesBetween : List Frame :=
  let c : Chunker := { chunkSize := 2, pos := by decide }
  let two := c.chunkMessage (.new .data 1 9 7) [1, 2, 3]
  two.take 1 ++ c.chunkMessage (.new .data 1 9 8) [4] ++ two.drop 1

theorem returned_whole_between :
    (Reassembly.new.run framesBetween).returned = [[4], [1, 2, 3]] ∧
    ∀ b ∈ (Reassembly.new.run framesBetween).returned,
      ∃ m ∈ [Message.mk (.new .data 1 9 7) [1, 2, 3], Message.mk (.new .data 1 9 8) [4]],
        b = m.payload :=
  ⟨by decide +kernel,
    returned_whole { chunkSize := 2, pos := by decide } _ framesBetween (by decide +kernel)⟩

/-- A message of two chunks, one byte more than fits into one. The second chunk
comes first, and is returned as if it were the message. -/
theorem last_chunk_first :
    ¬ ∀ (messages : List Message) (frames : List Frame),
      (messages.map fun m => (m.header.srcNode, m.header.msgId)).Nodup →
      (∀ m ∈ messages, m.payload ≠ []) →
      (∀ f ∈ frames, ∃ m ∈ messages, f ∈ Chunker.new.chunkMessage m.header m.payload) →
      ∀ b ∈ (Reassembly.new.run frames).returned, ∃ m ∈ messages, b = m.payload := by
  intro h
  let payload : Bytes := List.replicate (defaultChunkSize + 1) 0
  let header := FastHeader.new .data 1 9 7
  let last := Chunker.frame header true (Chunker.new.chunkData payload 1)
  have hlength : payload.length = defaultChunkSize + 1 := List.length_replicate
  have hne : payload ≠ [] := List.cons_ne_nil _ _
  have htotal : Chunker.new.totalChunks payload = 2 := by
    unfold Chunker.totalChunks
    rw [hlength]
    decide
  have hlast : last ∈ Chunker.new.chunkMessage header payload := by
    rw [Chunker.chunkMessage_eq _ _ _ hne, htotal]
    exact List.mem_map.mpr ⟨1, by decide, rfl⟩
  have hreturned : Chunker.new.chunkData payload 1 ∈ (Reassembly.new.run [last]).returned := by
    show _ ∈ (Reassembler.new.addChunk last).1.toList
    have hflags : last.fast.flags = (Flags.empty.union .chunked).union .chunkEnd := rfl
    have hadd := Reassembly.Inv.addChunk (s := Reassembly.new) (fun _ => rfl) last
    rw [hflags, if_pos (by decide)] at hadd
    rw [show (Reassembler.new.addChunk last).1 = _ from hadd]
    simp [Reassembly.new, sinceEnd, last, Chunker.frame, Frame.new]
  obtain ⟨m, hm, heq⟩ := h [⟨header, payload⟩] [last] (List.nodup_singleton _)
    (fun m hm => List.mem_singleton.mp hm ▸ hne)
    (fun f hf => ⟨_, List.mem_singleton_self _, List.mem_singleton.mp hf ▸ hlast⟩) _ hreturned
  have hlengths := congrArg List.length heq
  rw [List.mem_singleton.mp hm] at hlengths
  unfold Chunker.chunkData at hlengths
  rw [List.length_take, List.length_drop, hlength] at hlengths
  exact absurd hlengths (by decide)

end MeshCore.Wire
