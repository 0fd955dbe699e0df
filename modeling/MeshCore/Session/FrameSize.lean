import MeshCore.Session.Forwarding
import MeshCore.Wire.Cbor

/-!
# How large the frame of a message is

`build_data_frame` fails if the frame is larger than 64 KiB, and for no other reason, as
CBOR can be written of any metadata (`buildDataFrame_ok_iff`). The size follows from the
headers, the acknowledgment flag and the payload: a header map is written in the order of
its keys, which the size does not depend on (`metaMap_perm`).
-/

namespace MeshCore.Session

open MeshCore.Lib MeshCore.Wire

/-- The writer writes a map of texts to texts and byte strings as CBOR does. -/
def WritesCbor (crates : Crates) : Prop :=
  ∀ entries : List (String × CborValue), (∀ e ∈ entries, e.2.Plain) →
    crates.intoWriter (textMap entries) = some (cborEncode (textMap entries))

namespace OutboundMessage

/-- The headers that go into the metadata. -/
def writtenHeaders (m : OutboundMessage) : List (Sigma fun _ : String => Bytes) :=
  m.headers.entries.filter fun e => e.1 ≠ "frame_type"

/-- The acknowledgment flag goes into the metadata, unless a header takes its key. -/
def flagWritten (m : OutboundMessage) : Bool :=
  m.requireAck && (m.headers.lookup "require_ack").isNone

/-- The metadata, the flag first. -/
def metaEntries (m : OutboundMessage) : List (String × CborValue) :=
  (if m.flagWritten then [("require_ack", .text "true")] else []) ++
    m.writtenHeaders.map fun e => (e.1, .bytes e.2)

/-- The size of the metadata. -/
def metaSize (m : OutboundMessage) : Nat :=
  headSize (m.writtenHeaders.length + if m.flagWritten then 1 else 0) +
    (if m.flagWritten then stringSize 11 + stringSize 4 else 0) +
    (m.writtenHeaders.map fun e =>
      stringSize e.1.utf8ByteSize + stringSize e.2.length).sum

/-- The size of the frame: two lengths and the fast header, the metadata and the payload. -/
def frameSize (m : OutboundMessage) : Nat := 56 + m.metaSize + m.payload.length

end OutboundMessage

theorem metaEntries_nodup (m : OutboundMessage) : (m.metaEntries.map Prod.fst).Nodup := by
  have hnodup : (m.headers.entries.map Sigma.fst).Nodup := m.headers.nodupKeys
  have hheaders : (m.writtenHeaders.map Sigma.fst).Nodup :=
    hnodup.sublist (List.filter_sublist.map Sigma.fst)
  have hkeys : (m.writtenHeaders.map fun e => (e.1, CborValue.bytes e.2)).map Prod.fst
      = m.writtenHeaders.map Sigma.fst := by
    rw [List.map_map]
    rfl
  unfold OutboundMessage.metaEntries
  rw [List.map_append, hkeys]
  split
  next hflag =>
    refine List.nodup_cons.mpr ⟨?_, hheaders⟩
    -- the flag is written only if no header has its key
    intro hmem
    obtain ⟨e, he, hkey⟩ := List.mem_map.mp hmem
    have hlookup := HashMap.mem_entries_iff.mp (List.mem_filter.mp he).1
    have hnone := (Bool.and_eq_true_iff.mp hflag).2
    rw [show e.1 = "require_ack" from hkey] at hlookup
    rw [hlookup] at hnone
    exact absurd hnone (by simp)
  next => exact hheaders

theorem mem_metaEntries_iff {m : OutboundMessage} {key : String} {value : CborValue} :
    (key, value) ∈ m.metaEntries ↔ m.metaMap.get key = some value := by
  rw [metaMap_get, Option.or_eq_some_iff]
  unfold OutboundMessage.metaEntries
  rw [List.mem_append, or_comm]
  refine or_congr ?_ ?_
  · rw [List.mem_map]
    constructor
    · intro h
      obtain ⟨e, he, heq⟩ := h
      obtain ⟨hmem, hne⟩ := List.mem_filter.mp he
      obtain ⟨rfl, rfl⟩ := Prod.mk.inj heq
      rw [HashMap.mem_entries_iff.mp hmem, Option.bind_some, if_pos (of_decide_eq_true hne)]
    · intro hbind
      obtain ⟨v, hlookup, hv⟩ := Option.bind_eq_some_iff.mp hbind
      split at hv
      next hne =>
        exact ⟨⟨key, v⟩, List.mem_filter.mpr ⟨HashMap.mem_entries_iff.mpr hlookup,
          decide_eq_true hne⟩, by rw [Option.some.inj hv]⟩
      next => exact absurd hv (by simp)
  · by_cases hkey : key = "require_ack"
    · subst hkey
      unfold OutboundMessage.flagWritten
      cases m.requireAck with
      | false => simp
      | true => cases m.headers.lookup "require_ack" <;> simp [eq_comm]
    · refine iff_of_false ?_ ?_
      · split
        · simp [hkey]
        · exact List.not_mem_nil
      · simp [hkey]

/-- The metadata map has these entries. -/
theorem metaMap_perm (m : OutboundMessage) : m.metaMap.Perm m.metaEntries := by
  have hnodup : m.metaMap.Nodup :=
    .of_map Prod.fst ((metaMap_sorted m).nodup_keys keyLt_strictOrder)
  have hnodup' : m.metaEntries.Nodup := .of_map Prod.fst (metaEntries_nodup m)
  refine (List.perm_ext_iff_of_nodup hnodup hnodup').mpr ?_
  intro e
  obtain ⟨key, value⟩ := e
  rw [mem_metaEntries_iff, BTreeMap.get_eq_some_iff keyLt_strictOrder (metaMap_sorted m)]

theorem metaMap_length (m : OutboundMessage) :
    (cborEncode (textMap m.metaMap)).length = m.metaSize := by
  have hperm := metaMap_perm m
  rw [cborEncode_textMap_length, hperm.length_eq, (hperm.map _).sum_eq]
  unfold OutboundMessage.metaEntries OutboundMessage.metaSize
  have hheaders : (m.writtenHeaders.map fun e => (e.1, CborValue.bytes e.2)).map
      (fun e => stringSize e.1.utf8ByteSize + (cborEncode e.2).length)
        = m.writtenHeaders.map fun e => stringSize e.1.utf8ByteSize + stringSize e.2.length := by
    rw [List.map_map]
    exact List.map_congr_left fun e _ =>
      congrArg (stringSize e.1.utf8ByteSize + ·) (cborEncode_bytes_length e.2)
  rw [List.length_append, List.map_append, List.sum_append, hheaders, List.length_map]
  cases m.flagWritten with
  | false => simp
  | true =>
    have hkey : "require_ack".utf8ByteSize = 11 := by decide
    have hvalue : "true".utf8ByteSize = 4 := by decide
    simp only [if_true, List.length_singleton, List.map_singleton, List.sum_singleton,
      cborEncode_text_length, hkey, hvalue]
    rw [Nat.add_comm 1]
    omega

/-- **When `build_data_frame` succeeds.** -/
theorem buildDataFrame_ok_iff {crates : Crates} (hcrates : WritesCbor crates)
    (m : OutboundMessage) :
    (∃ bytes, buildDataFrame crates m = .ok bytes) ↔ m.frameSize ≤ maxDataFrame := by
  have hwrite := hcrates m.metaMap (metaMap_plain m)
  have hsize : (m.frame (cborEncode (textMap m.metaMap))).encodedSize = m.frameSize := by
    show 4 + fastHeaderSize + 0 + 4 + (cborEncode (textMap m.metaMap)).length + m.payload.length = _
    rw [metaMap_length]
    rfl
  have hbuild : MetaBuilder.build crates ⟨m.metaMap⟩ = .ok (cborEncode (textMap m.metaMap)) :=
    MetaBuilder.build_of_write hwrite
  rw [buildDataFrame_eq, hbuild]
  dsimp only
  rw [hsize]
  split
  next hlarge => exact iff_of_false (fun ⟨_, h⟩ => absurd h (by simp)) (Nat.not_le.mpr hlarge)
  next hlarge => exact iff_of_true ⟨_, rfl⟩ (Nat.not_lt.mp hlarge)

end MeshCore.Session
