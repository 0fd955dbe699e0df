import MeshCore.Session.Reliability
import MeshCore.Storage.Watermark
import MeshCore.Wire.Builder
import MeshCore.Wire.Cbor

/-!
# The metadata of ACK and RESUME frames (`mesh-session/src/reliability.rs`)

The values of an ACK are in a CBOR map of their own, which is a byte string under the
key `ack` of the frame's metadata. `parse_ack_meta` looks for the values at the top
level of what it is given: on the inner map it finds them, on the frame's metadata it
finds none and gives its defaults. RESUME frames are built and parsed the same way, with
the flag `resume` under the key that holds the inner map.

Mirroring notes:
- `serde_cbor::from_slice` is a parameter. Its maps are in its own key order, which the
  parsers do not look at.
- Integers are `i128` and cast with `as u64` and `as u32`.
-/

namespace MeshCore.Session

open MeshCore.Lib MeshCore.Wire MeshCore.Storage ReliabilityManager

/-! ## The parsers -/

/-- The value under a text key, if this is a map with that key. -/
def fieldOf (value : CborValue) (key : String) : Option CborValue :=
  match value with
  | .map map => findText map key
  | _ => none

/-- An integer field. -/
def integerOf (value : CborValue) (key : String) : Option Int :=
  match fieldOf value key with
  | some (.integer i) => some i
  | _ => none

/-- A boolean field. -/
def boolOf (value : CborValue) (key : String) : Option Bool :=
  match fieldOf value key with
  | some (.bool b) => some b
  | _ => none

/-- The cast `as u64`. -/
def asU64 (i : Int) : Nat := (i % 2 ^ 64).toNat

/-- `parse_ack_meta`. -/
def parseAckMeta (fromSlice : Bytes → Option CborValue) (metaRaw : Bytes) :
    Except ReliabilityError AckMeta :=
  match fromSlice metaRaw with
  | none => .error .cbor
  | some value =>
    .ok {
      cumAck := ((integerOf value "cum_ack").map asU64).getD 0
      credits := ((integerOf value "credits").map UInt32.ofInt).getD 0 }

/-- `parse_resume_meta`. -/
def parseResumeMeta (fromSlice : Bytes → Option CborValue) (metaRaw : Bytes) :
    Except ReliabilityError ResumeMeta :=
  match fromSlice metaRaw with
  | none => .error .cbor
  | some value =>
    .ok {
      resume := (boolOf value "resume").getD false
      senderCumAck := ((integerOf value "sender_cum_ack").map asU64).getD 0
      receiverCumProc := ((integerOf value "receiver_cum_proc").map asU64).getD 0
      startingCredits := (integerOf value "starting_credits").map UInt32.ofInt }

theorem fieldOf_textMap (entries : BTreeMap String CborValue) (key : String) :
    fieldOf (textMap entries) key = entries.get key :=
  findText_textMap entries key

/-! ## What arrives of a control frame -/

/-- The metadata of a control frame around an inner map. -/
def controlMeta (contentType key : String) (inner : Bytes) : MetaBuilder :=
  (MetaBuilder.new.insertStr "content-type" contentType).insertBytes key inner

theorem controlMeta_get (contentType key : String) (inner : Bytes) (k : String) :
    (controlMeta contentType key inner).map.get k
      = if k = key then some (.bytes inner)
        else if k = "content-type" then some (.text contentType) else none := by
  unfold controlMeta MetaBuilder.insertBytes MetaBuilder.insertStr MetaBuilder.insert
  dsimp only
  rw [BTreeMap.get_insert, BTreeMap.get_insert]
  rfl

theorem controlMeta_sorted (contentType key : String) (inner : Bytes) :
    (controlMeta contentType key inner).map.Sorted keyLt := by
  have hnil : BTreeMap.Sorted keyLt ([] : BTreeMap String CborValue) := List.Pairwise.nil
  exact (hnil.insert keyLt_strictOrder _ _).insert keyLt_strictOrder _ _

theorem controlMeta_scalar (contentType key : String) (inner : Bytes) :
    ∀ e ∈ (controlMeta contentType key inner).map, e.2.Scalar := by
  intro e he
  rcases BTreeMap.mem_insert he with rfl | he
  · trivial
  · rcases BTreeMap.mem_insert he with rfl | he
    · trivial
    · exact absurd he List.not_mem_nil

/-- A control frame has the inner map, as bytes, under its key, and nothing else but a
content type. -/
theorem buildControl_arrives {crates : Crates} {fromSlice : Bytes → Option CborValue}
    (h : CborCrates crates fromSlice) {typ : FrameType} {peer : Peer} {myNodeId : UInt64}
    {contentType key : String} {entries : List (String × CborValue)} {bytes : Bytes}
    (hbuild : buildControl crates typ peer myNodeId contentType key entries = .ok bytes) :
    ∃ (f : Frame) (inner : Bytes) (outer : BTreeMap String CborValue),
      (∀ g rest, FrameDecoder.new.decode bytes = (.ok (some g), rest)
        ↔ g = f ∧ rest = [] ∧ f.metaRaw.length ≤ maxMetaSize) ∧
      f.metaRaw.length ≤ (cborEncode (textMap (controlMeta contentType key inner).map)).length ∧
      cborMap crates entries = .ok inner ∧
      fromSlice f.metaRaw = some (textMap outer) ∧
      ∀ k, outer.get k = (controlMeta contentType key inner).map.get k := by
  unfold buildControl at hbuild
  cases hinner : cborMap crates entries with
  | error e =>
    rw [hinner] at hbuild
    exact absurd hbuild (by simp [bind, Except.bind])
  | ok inner =>
    rw [hinner] at hbuild
    dsimp only [bind, Except.bind] at hbuild
    split at hbuild
    next built hbuilt =>
      obtain rfl := Except.ok.inj hbuild
      let calls : List BuilderCall :=
        [.metaInsertStr "content-type" contentType, .metaInsertBytes key inner, .payload []]
      have hcalls : (builderOf (.new typ myNodeId peer 0) calls).build crates (1024 * 1024)
          = .ok built := hbuilt
      obtain ⟨f, hmeta, -, hdecode⟩ :=
        builderOf_arrives (by decide : 1024 * 1024 ≤ defaultMaxFrameSize) hcalls
      have hwrite := MetaBuilder.build_eq_ok hmeta
      have hnodup := (controlMeta_sorted contentType key inner).nodup_keys keyLt_strictOrder
      obtain ⟨outer, hperm, hread⟩ := h.intoWriter _ _ hnodup
        (controlMeta_scalar contentType key inner) hwrite
      exact ⟨f, inner, outer, hdecode, h.intoWriter_length _ _ hwrite, rfl, hread,
        fun k => BTreeMap.get_perm hperm hnodup k⟩
    next => exact absurd hbuild (by simp)

/-! ## The inner map of an ACK -/

/-- The entries of an ACK, in the order `serde_cbor` gives them. -/
theorem ackMap_eq (c k : CborValue) :
    [("cum_ack", c), ("credits", k)].foldl
        (fun m e => BTreeMap.insert cborKeyLt m e.1 e.2) ([] : BTreeMap String CborValue)
      = [("credits", k), ("cum_ack", c)] := by
  have hne : ("credits" : String) ≠ "cum_ack" := by decide
  have hlt : cborKeyLt "credits" "cum_ack" = true := by decide
  simp only [List.foldl_cons, List.foldl_nil, BTreeMap.insert, if_neg hne, if_pos hlt]

theorem cborMap_ack_eq_ok {crates : Crates} {c k : CborValue} {inner : Bytes}
    (h : cborMap crates [("cum_ack", c), ("credits", k)] = .ok inner) :
    crates.toVec (textMap [("credits", k), ("cum_ack", c)]) = some inner := by
  unfold cborMap at h
  rw [ackMap_eq] at h
  dsimp only at h
  split at h
  next bytes hbytes =>
    obtain rfl := Except.ok.inj h
    exact hbytes
  next => exact absurd h (by simp)

/-- **Parsing the inner map of an ACK** gives what was encoded, after the casts. -/
theorem parseAckMeta_ackMap {crates : Crates} {fromSlice : Bytes → Option CborValue}
    (h : CborCrates crates fromSlice) {c k : Int} {inner : Bytes}
    (hinner : cborMap crates [("cum_ack", .integer c), ("credits", .integer k)] = .ok inner) :
    parseAckMeta fromSlice inner = .ok { cumAck := asU64 c, credits := UInt32.ofInt k } := by
  have hnodup :
      ([("credits", CborValue.integer k), ("cum_ack", .integer c)].map Prod.fst).Nodup := by
    show ["credits", "cum_ack"].Nodup
    decide
  have hscalar : ∀ e ∈ [("credits", CborValue.integer k), ("cum_ack", .integer c)],
      e.2.Scalar := by simp [CborValue.Scalar]
  obtain ⟨entries, hperm, hread⟩ := h.toVec _ _ hnodup hscalar (cborMap_ack_eq_ok hinner)
  have hget := BTreeMap.get_perm hperm hnodup
  have hcum : BTreeMap.get entries "cum_ack" = some (.integer c) := (hget _).trans rfl
  have hcredits : BTreeMap.get entries "credits" = some (.integer k) := (hget _).trans rfl
  unfold parseAckMeta integerOf
  rw [hread]
  dsimp only
  rw [fieldOf_textMap, fieldOf_textMap, hcum, hcredits]
  rfl

/-- The inner map of an ACK is small. -/
theorem ackMap_length_le {crates : Crates} {fromSlice : Bytes → Option CborValue}
    (h : CborCrates crates fromSlice) {c k : Int} {inner : Bytes}
    (hinner : cborMap crates [("cum_ack", .integer c), ("credits", .integer k)] = .ok inner) :
    inner.length ≤ 59 := by
  have hlen := h.toVec_length _ _ (cborMap_ack_eq_ok hinner)
  have hpair := cborEncode_pair_length_le "credits" "cum_ack"
    (cborEncode_integer_length_le k) (cborEncode_integer_length_le c)
  have hcredits : "credits".utf8ByteSize = 7 := by decide
  have hcum : "cum_ack".utf8ByteSize = 7 := by decide
  omega

/-- **Every ACK decodes**, to a frame with its values in the inner map. -/
theorem buildAck_decodes {crates : Crates} {fromSlice : Bytes → Option CborValue}
    (h : CborCrates crates fromSlice) {peer : Peer} {myNodeId : UInt64} {r : RecvState}
    {bytes : Bytes} (hbuild : buildAck crates peer myNodeId r = .ok bytes) :
    ∃ (f : Frame) (inner : Bytes) (outer : BTreeMap String CborValue),
      (∀ g rest, FrameDecoder.new.decode bytes = (.ok (some g), rest) ↔ g = f ∧ rest = []) ∧
      cborMap crates [("cum_ack", .integer r.cumProcessed), ("credits", .integer r.creditsAvail)]
        = .ok inner ∧
      fromSlice f.metaRaw = some (textMap outer) ∧
      ∀ k, outer.get k = (controlMeta "application/x-ack" "ack" inner).map.get k := by
  obtain ⟨f, inner, outer, hdecode, hsize, hinner, hread, hget⟩ := buildControl_arrives h hbuild
  have hmap : (controlMeta "application/x-ack" "ack" inner).map
      = [("ack", .bytes inner), ("content-type", .text "application/x-ack")] := by
    have hne : ("ack" : String) ≠ "content-type" := by decide
    have hlt : keyLt "ack" "content-type" = true := by decide
    show BTreeMap.insert keyLt [("content-type", CborValue.text "application/x-ack")] "ack"
      (CborValue.bytes inner) = _
    simp only [BTreeMap.insert, if_neg hne, if_pos hlt]
  have hfits : f.metaRaw.length ≤ maxMetaSize := by
    have hlen := ackMap_length_le h hinner
    have hpair := cborEncode_pair_length_le "ack" "content-type"
      (cborEncode_bytes_length_le inner) (cborEncode_text_length_le "application/x-ack")
    have hack : "ack".utf8ByteSize = 3 := by decide
    have htype : "content-type".utf8ByteSize = 12 := by decide
    have hvalue : "application/x-ack".utf8ByteSize = 17 := by decide
    rw [hmap] at hsize
    unfold maxMetaSize
    omega
  refine ⟨f, inner, outer, fun g rest => ?_, hinner, hread, hget⟩
  rw [hdecode]
  simp only [hfits, and_true]

/-! ## The values of a frame -/

/-- **What `maybe_build_ack` builds**: the ACK of the refreshed state, which is kept. -/
theorem maybeBuildAck_built {τ : Type} [Dedup τ] {crates : Crates} {m : ReliabilityManager τ}
    {now : Nat} {peer : Peer} {myNodeId : UInt64} {bytes : Bytes}
    (h : (m.maybeBuildAck crates now peer myNodeId).1 = .ok (some bytes)) :
    buildAck crates peer myNodeId (refreshed (m.recvState now peer)) = .ok bytes ∧
      Received m (m.maybeBuildAck crates now peer myNodeId).2 peer m.storage
        { refreshed (m.recvState now peer) with
          ackPending := false, lastAckSent := now, msgsSinceAck := 0 } := by
  rw [maybeBuildAck_eq] at h ⊢
  split at h
  next hdue =>
    rw [if_pos hdue]
    split at h
    next => exact absurd h (by simp)
    next ackFrame hbuild =>
      obtain rfl := Option.some.inj (Except.ok.inj h)
      rw [hbuild]
      exact ⟨rfl, received_keep m now peer _⟩
  next => exact absurd h (by simp)

/-- `parse_ack_meta` on the metadata of the ACK frame gives these values. -/
def AckCarries (fromSlice : Bytes → Option CborValue) (bytes : Bytes) (c : Nat) (k : Int) : Prop :=
  ∃ f rest ack, FrameDecoder.new.decode bytes = (.ok (some f), rest) ∧
    parseAckMeta fromSlice f.metaRaw = .ok ack ∧ ack.cumAck = c ∧ ack.credits.toNat = k

/-- `parse_resume_meta` on the metadata of the RESUME frame gives these values. -/
def ResumeCarries (fromSlice : Bytes → Option CborValue) (bytes : Bytes) (resume : ResumeMeta) :
    Prop :=
  ∃ f rest, FrameDecoder.new.decode bytes = (.ok (some f), rest) ∧
    parseResumeMeta fromSlice f.metaRaw = .ok resume

/-- At the top level of the metadata of an ACK there is neither value. -/
theorem parseAckMeta_outer {fromSlice : Bytes → Option CborValue} {metaRaw inner : Bytes}
    {outer : BTreeMap String CborValue} (hread : fromSlice metaRaw = some (textMap outer))
    (hget : ∀ k, outer.get k = (controlMeta "application/x-ack" "ack" inner).map.get k) :
    parseAckMeta fromSlice metaRaw = .ok { cumAck := 0, credits := 0 } := by
  have hcum : outer.get "cum_ack" = none := by
    rw [hget, controlMeta_get]
    rfl
  have hcredits : outer.get "credits" = none := by
    rw [hget, controlMeta_get]
    rfl
  unfold parseAckMeta integerOf
  rw [hread]
  dsimp only
  rw [fieldOf_textMap, fieldOf_textMap, hcum, hcredits]
  rfl

/-- At the top level of the metadata of a RESUME the key `resume` holds bytes. -/
theorem parseResumeMeta_outer {fromSlice : Bytes → Option CborValue} {metaRaw inner : Bytes}
    {outer : BTreeMap String CborValue} (hread : fromSlice metaRaw = some (textMap outer))
    (hget : ∀ k, outer.get k = (controlMeta "application/x-resume" "resume" inner).map.get k) :
    parseResumeMeta fromSlice metaRaw
      = .ok { resume := false, senderCumAck := 0, receiverCumProc := 0
              startingCredits := none } := by
  have hnone : ∀ k, k ≠ "resume" → k ≠ "content-type" → fieldOf (textMap outer) k = none := by
    intro k hresume htype
    rw [fieldOf_textMap, hget, controlMeta_get, if_neg hresume, if_neg htype]
  have hresume : fieldOf (textMap outer) "resume" = some (.bytes inner) := by
    rw [fieldOf_textMap, hget, controlMeta_get, if_pos rfl]
  unfold parseResumeMeta integerOf boolOf
  rw [hread]
  dsimp only
  rw [hresume, hnone "sender_cum_ack" (by decide) (by decide),
    hnone "receiver_cum_proc" (by decide) (by decide),
    hnone "starting_credits" (by decide) (by decide)]
  rfl

theorem ackCarries_iff {crates : Crates} {fromSlice : Bytes → Option CborValue}
    (h : CborCrates crates fromSlice) {peer : Peer} {myNodeId : UInt64} {r : RecvState}
    {bytes : Bytes} (hbuild : buildAck crates peer myNodeId r = .ok bytes) :
    AckCarries fromSlice bytes r.cumProcessed r.creditsAvail
      ↔ r.cumProcessed = 0 ∧ r.creditsAvail = 0 := by
  obtain ⟨f, inner, outer, hdecode, -, hread, hget⟩ := buildAck_decodes h hbuild
  have hparse := parseAckMeta_outer hread hget
  constructor
  · intro hcarries
    obtain ⟨g, rest, ack, hg, hack, hcum, hcredits⟩ := hcarries
    obtain ⟨rfl, -⟩ := (hdecode g rest).mp hg
    obtain rfl := Except.ok.inj (hparse.symm.trans hack)
    exact ⟨hcum.symm, hcredits.symm⟩
  · intro hzero
    obtain ⟨hcum, hcredits⟩ := hzero
    rw [hcum, hcredits]
    exact ⟨f, [], _, (hdecode f []).mpr ⟨rfl, rfl⟩, hparse, rfl, rfl⟩

/-- **The parsers do not find the values.** `parse_ack_meta` on the metadata of the frame
of `maybe_build_ack` gives the values it carries exactly when they are the defaults: the
watermark is 0 and there are no credits to give. `parse_resume_meta` never does on that of
`build_resume`. -/
theorem control_values_iff {τ : Type} [Wal τ] [Dedup τ] (crates : Crates)
    (fromSlice : Bytes → Option CborValue) (h : CborCrates crates fromSlice)
    (m : ReliabilityManager τ) (now : Nat) (peer : Peer) (myNodeId : UInt64) :
    (∀ bytes, (m.maybeBuildAck crates now peer myNodeId).1 = .ok (some bytes) →
      let r := (m.maybeBuildAck crates now peer myNodeId).2.recvState now peer
      (AckCarries fromSlice bytes r.cumProcessed r.creditsAvail
        ↔ (m.recvState now peer).cumProcessed = 0 ∧ (m.recvState now peer).creditsMax = 0 ∧
          (m.recvState now peer).creditsAvail ≤ 0)) ∧
    ∀ bytes, (m.buildResume crates now peer myNodeId).1 = .ok bytes →
      ¬ ResumeCarries fromSlice bytes
        { resume := true
          senderCumAck := (m.sendState peer).cumAcked
          receiverCumProc := (m.recvState now peer).cumProcessed
          startingCredits := some (m.recvState now peer).creditsMax } := by
  constructor
  · intro bytes hbytes
    obtain ⟨hbuild, hreceived⟩ := maybeBuildAck_built hbytes
    rw [hreceived.recvState_eq]
    refine (ackCarries_iff h hbuild).trans ?_
    rw [refreshed_cumProcessed]
    refine and_congr_right fun _ => ?_
    generalize m.recvState now peer = r
    have hmax : r.creditsMax = 0 ↔ r.creditsMax.toNat = 0 := UInt32.toNat_inj.symm
    unfold refreshed
    rw [hmax]
    split
    next hlow =>
      dsimp only
      omega
    next hhigh => omega
  · intro bytes hbytes hcarries
    obtain ⟨f, rest, hdecode, hparse⟩ := hcarries
    obtain ⟨g, inner, outer, hiff, -, -, hread, hget⟩ := buildControl_arrives h hbytes
    obtain ⟨rfl, -⟩ := (hiff f rest).mp hdecode
    have hdefaults := Except.ok.inj ((parseResumeMeta_outer hread hget).symm.trans hparse)
    exact absurd (congrArg ResumeMeta.resume hdefaults) (by simp)

/-- A receiver that has taken in one message, and owes an ACK for it. -/
def owingReceiver : ReliabilityManager MemoryStorage :=
  ((ReliabilityManager.new (.new 8) 0 1 300).processDataFrame 0 7 1 [1, 2, 3]).2

theorem owingReceiver_acks : ∃ bytes,
    (owingReceiver.maybeBuildAck .flat 0 7 1).1 = .ok (some bytes) := by
  obtain ⟨bytes, hbytes⟩ := exists_of_isOk (by decide +kernel :
    (buildAck .flat 7 1 (refreshed (owingReceiver.recvState 0 7))).isOk = true)
  refine ⟨bytes, ?_⟩
  rw [maybeBuildAck_eq, if_pos (by decide), hbytes]

theorem control_values_iff_owing : ∃ bytes,
    (owingReceiver.maybeBuildAck .flat 0 7 1).1 = .ok (some bytes) ∧
      ¬ AckCarries readMap bytes 1 297 := by
  obtain ⟨bytes, hbytes⟩ := owingReceiver_acks
  refine ⟨bytes, hbytes, fun hcarries => ?_⟩
  have hiff := (control_values_iff .flat readMap flat_cborCrates owingReceiver 0 7 1).1 bytes hbytes
  exact absurd (hiff.mp hcarries).1 (by decide)

/-- The ACK for one message of three bytes. -/
theorem ack_values_lost :
    ¬ ∀ (crates : Crates) (fromSlice : Bytes → Option CborValue), CborCrates crates fromSlice →
      ∀ (m : ReliabilityManager MemoryStorage) (now : Nat) (peer : Peer) (myNodeId : UInt64)
        (bytes : Bytes), (m.maybeBuildAck crates now peer myNodeId).1 = .ok (some bytes) →
        let r := (m.maybeBuildAck crates now peer myNodeId).2.recvState now peer
        AckCarries fromSlice bytes r.cumProcessed r.creditsAvail := by
  intro h
  obtain ⟨bytes, hbytes⟩ := owingReceiver_acks
  have hcarries := h .flat readMap flat_cborCrates owingReceiver 0 7 1 bytes hbytes
  obtain ⟨hbuild, hreceived⟩ := maybeBuildAck_built hbytes
  dsimp only at hcarries
  rw [hreceived.recvState_eq] at hcarries
  exact absurd ((ackCarries_iff flat_cborCrates hbuild).mp hcarries).1 (by decide)

/-! ## Runs of the receiving side -/

/-- A call on the receiving side. -/
inductive ReceiverCall where
  | processDataFrame (now : Nat) (peer : Peer) (msgId : UInt64) (payload : Bytes)
  | maybeBuildAck (now : Nat) (peer : Peer)

/-- A manager, and the ACKs built so far for one peer. -/
structure ReceiverRun (τ : Type) where
  manager : ReliabilityManager τ
  acks : List Bytes

namespace ReceiverRun

variable {τ : Type} [Dedup τ]

/-- One call. -/
def step (crates : Crates) (myNodeId : UInt64) (peer : Peer) (s : ReceiverRun τ) :
    ReceiverCall → ReceiverRun τ
  | .processDataFrame now q msgId payload =>
    { s with manager := (s.manager.processDataFrame now q msgId.toNat payload).2 }
  | .maybeBuildAck now q =>
    let (result, manager) := s.manager.maybeBuildAck crates now q myNodeId
    { manager
      acks :=
        match result with
        | .ok (some bytes) => if q = peer then s.acks ++ [bytes] else s.acks
        | _ => s.acks }

/-- The run from a new manager. -/
def run (crates : Crates) (myNodeId : UInt64) (peer : Peer) (storage : τ) (ackInterval : Nat)
    (ackBatchSize defaultRecvWindow : UInt32) (calls : List ReceiverCall) : ReceiverRun τ :=
  calls.foldl (step crates myNodeId peer)
    { manager := .new storage ackInterval ackBatchSize defaultRecvWindow, acks := [] }

end ReceiverRun

/-- An ACK frame has, in the map under its key `ack`, the watermark `c` and the credits
`k`, and `parse_ack_meta` gives just these on that map. -/
def Advertises (crates : Crates) (fromSlice : Bytes → Option CborValue) (bytes : Bytes)
    (c k : Nat) : Prop :=
  ∃ f rest value inner ack, FrameDecoder.new.decode bytes = (.ok (some f), rest) ∧
    fromSlice f.metaRaw = some value ∧ fieldOf value "ack" = some (.bytes inner) ∧
    cborMap crates [("cum_ack", .integer c), ("credits", .integer k)] = .ok inner ∧
    parseAckMeta fromSlice inner = .ok ack ∧ ack.cumAck = c ∧ ack.credits.toNat = k

theorem advertises_of_buildAck {crates : Crates} {fromSlice : Bytes → Option CborValue}
    (h : CborCrates crates fromSlice) {peer : Peer} {myNodeId : UInt64} {r : RecvState}
    {bytes : Bytes} (hbuild : buildAck crates peer myNodeId r = .ok bytes) {k : Nat}
    (hcredits : r.creditsAvail = k) (hcum : r.cumProcessed < 2 ^ 64) (hk : k < 2 ^ 32) :
    Advertises crates fromSlice bytes r.cumProcessed k := by
  obtain ⟨f, inner, outer, hdecode, hinner, hread, hget⟩ := buildAck_decodes h hbuild
  rw [hcredits] at hinner
  have hack : fieldOf (textMap outer) "ack" = some (.bytes inner) := by
    rw [fieldOf_textMap, hget, controlMeta_get, if_pos rfl]
  refine ⟨f, [], _, inner, _, (hdecode f []).mpr ⟨rfl, rfl⟩, hread, hack, hinner,
    parseAckMeta_ackMap h hinner, ?_, ?_⟩
  · show asU64 r.cumProcessed = r.cumProcessed
    unfold asU64
    omega
  · show (UInt32.ofInt k).toNat = k
    rw [UInt32.ofInt, UInt32.toNat_ofNat']
    omega

/-! ### What the calls keep -/

section Kept

variable {τ : Type} [Dedup τ] (m : ReliabilityManager τ) (now : Nat) (q : Peer)

theorem initRecvState_window :
    (m.initRecvState now q).2.defaultRecvWindow = m.defaultRecvWindow := by
  unfold initRecvState
  split <;> rfl

theorem processDataFrame_window (msgId : Nat) (payload : Bytes) :
    (m.processDataFrame now q msgId payload).2.defaultRecvWindow = m.defaultRecvWindow := by
  have hinit := initRecvState_window m now q
  unfold processDataFrame
  dsimp only
  split <;> exact hinit

theorem maybeBuildAck_window (crates : Crates) (myNodeId : UInt64) :
    (m.maybeBuildAck crates now q myNodeId).2.defaultRecvWindow = m.defaultRecvWindow := by
  have hinit := initRecvState_window m now q
  rw [maybeBuildAck_eq]
  split
  · split <;> exact hinit
  · exact hinit

end Kept

/-- The receive state of one peer: its credits within the window, its watermark no
higher than that of the record, and all recorded ids of 64 bits. -/
structure Receiving {τ : Type} [Dedup τ] (tables : τ → DedupTables) (window : UInt32) (peer : Peer)
    (m : ReliabilityManager τ) : Prop where
  newWindow : m.defaultRecvWindow = window
  creditsMax : (m.recvState 0 peer).creditsMax = window
  creditsAvail : (m.recvState 0 peer).creditsAvail ≤ window.toNat
  cum : (m.recvState 0 peer).cumProcessed ≤ (tables m.storage).cum peer
  recorded : ∀ i, (tables m.storage).isProcessed peer i = true → i < 2 ^ 64

namespace Receiving

variable {τ : Type} [Dedup τ] {tables : τ → DedupTables} {window : UInt32} {peer : Peer}
  {m m' : ReliabilityManager τ}

/-- An operation that keeps a receive state for the peer. -/
theorem keep (h : Receiving tables window peer m) {st : τ} {r : RecvState}
    (hr : Received m m' peer st r) (hwindow : m'.defaultRecvWindow = m.defaultRecvWindow)
    (hmax : r.creditsMax = window) (havail : r.creditsAvail ≤ window.toNat)
    (hcum : r.cumProcessed ≤ (tables st).cum peer)
    (hrecorded : ∀ i, (tables st).isProcessed peer i = true → i < 2 ^ 64) :
    Receiving tables window peer m' := by
  refine ⟨hwindow.trans h.newWindow, ?_, ?_, ?_, ?_⟩
  · rw [hr.recvState_eq, hmax]
  · rw [hr.recvState_eq]
    exact havail
  · rw [hr.recvState_eq, hr.storage]
    exact hcum
  · rw [hr.storage]
    exact hrecorded

/-- An operation for another peer. -/
theorem other (hb : Backed tables) {q : Peer} (hne : peer ≠ q) {st : τ} {r : RecvState}
    (hr : Received m m' q st r) (hwindow : m'.defaultRecvWindow = m.defaultRecvWindow)
    (hcum : (tables st).cum peer = (tables m.storage).cum peer)
    (hgaps : (tables st).gaps peer = (tables m.storage).gaps peer)
    (h : Receiving tables window peer m) :
    Receiving tables window peer m' ∧ m'.recvState 0 peer = m.recvState 0 peer := by
  have hsame : m'.recvState 0 peer = m.recvState 0 peer := by
    unfold recvState initRecvState
    rw [hr.recvStates, if_neg hne, hr.storage, hwindow, hb.cumProcessed, hb.cumProcessed, hcum]
    cases m.recvStates.lookup peer <;> rfl
  refine ⟨⟨hwindow.trans h.newWindow, ?_, ?_, ?_, ?_⟩, hsame⟩
  · rw [hsame]
    exact h.creditsMax
  · rw [hsame]
    exact h.creditsAvail
  · rw [hsame, hr.storage, hcum]
    exact h.cum
  · intro i hi
    rw [hr.storage, DedupTables.isProcessed_congr hcum hgaps] at hi
    exact h.recorded i hi

/-- **`process_data_frame`** keeps it, and the watermark does not fall. -/
theorem processDataFrame (hb : Backed tables) (h : Receiving tables window peer m) (now : Nat)
    (q : Peer) (msgId : UInt64) (payload : Bytes) :
    Receiving tables window peer (m.processDataFrame now q msgId.toNat payload).2 ∧
      (m.recvState 0 peer).cumProcessed
        ≤ ((m.processDataFrame now q msgId.toNat payload).2.recvState 0 peer).cumProcessed := by
  obtain ⟨r, hr, hcum, hmax, havail⟩ := processDataFrame_kept m now q msgId.toNat payload
  have hwindow := processDataFrame_window m now q msgId.toNat payload
  obtain ⟨havail₀, hmax₀, hcum₀⟩ := recvState_now m now 0 q
  rw [havail₀] at havail
  rw [hmax₀] at hmax
  rw [hcum₀] at hcum
  by_cases hq : peer = q
  · subst hq
    have hle := h.creditsAvail
    rw [hr.recvState_eq]
    cases hp : Dedup.isProcessed m.storage peer msgId.toNat with
    | true =>
      simp only [hp, if_true] at hr hcum havail
      rw [hcum]
      exact ⟨h.keep hr hwindow (hmax.trans h.creditsMax) (havail ▸ hle) (hcum ▸ h.cum) h.recorded,
        Nat.le_refl _⟩
    | false =>
      simp only [hp, Bool.false_eq_true, if_false] at hr hcum havail
      rw [hb.cumProcessed, hb.markProcessed] at hcum
      have hmark := (tables m.storage).cum_le_mark peer msgId.toNat
      refine ⟨h.keep hr hwindow (hmax.trans h.creditsMax) (by omega) ?_ ?_, ?_⟩
      · rw [hb.markProcessed, hcum]
      · intro i hi
        rw [hb.markProcessed, DedupTables.isProcessed_iff] at hi
        rcases DedupTables.recorded_of_mark hi with hold | hold | rfl
        · exact h.recorded i (DedupTables.isProcessed_iff.mpr (Or.inl hold))
        · exact h.recorded i (DedupTables.isProcessed_iff.mpr (Or.inr hold))
        · exact msgId.toNat_lt
      · rw [hcum]
        exact Nat.le_trans h.cum hmark
  · have hother := (tables m.storage).mark_other hq msgId.toNat
    cases hp : Dedup.isProcessed m.storage q msgId.toNat with
    | true =>
      simp only [hp, if_true] at hr
      obtain ⟨hkept, hsame⟩ := h.other hb hq hr hwindow rfl rfl
      exact ⟨hkept, Nat.le_of_eq (by rw [hsame])⟩
    | false =>
      simp only [hp, Bool.false_eq_true, if_false] at hr
      rw [← hb.markProcessed] at hother
      obtain ⟨hkept, hsame⟩ := h.other hb hq hr hwindow hother.1 hother.2
      exact ⟨hkept, Nat.le_of_eq (by rw [hsame])⟩

/-- What is advertised is within the window, and above half of it. -/
theorem refreshed_range (h : Receiving tables window peer m) (now : Nat) :
    ∃ k : Nat, (refreshed (m.recvState now peer)).creditsAvail = k ∧ k ≤ window.toNat ∧
      (k = window.toNat ∨ window.toNat / 2 < k) := by
  obtain ⟨havail, hmax, -⟩ := recvState_now m now 0 peer
  have hle := h.creditsAvail
  rw [← havail] at hle
  have hwin : (m.recvState now peer).creditsMax = window := hmax.trans h.creditsMax
  unfold refreshed
  rw [hwin]
  split
  next => exact ⟨window.toNat, rfl, Nat.le_refl _, Or.inl rfl⟩
  next hhigh =>
    refine ⟨(m.recvState now peer).creditsAvail.toNat, ?_, ?_, Or.inr ?_⟩ <;> omega

/-- **`maybe_build_ack`** keeps it, and leaves the watermark. -/
theorem maybeBuildAck (hb : Backed tables) (h : Receiving tables window peer m) (crates : Crates)
    (now : Nat) (q : Peer) (myNodeId : UInt64) :
    Receiving tables window peer (m.maybeBuildAck crates now q myNodeId).2 ∧
      ((m.maybeBuildAck crates now q myNodeId).2.recvState 0 peer).cumProcessed
        = (m.recvState 0 peer).cumProcessed := by
  obtain ⟨r, hr, hcum, hmax, havail⟩ := maybeBuildAck_kept crates m now q myNodeId
  have hwindow := maybeBuildAck_window m now q crates myNodeId
  obtain ⟨havail₀, hmax₀, hcum₀⟩ := recvState_now m now 0 q
  by_cases hq : peer = q
  · subst hq
    have hle : r.creditsAvail ≤ window.toNat := by
      obtain ⟨k, hk, hkle, -⟩ := h.refreshed_range now
      rcases havail with heq | heq
      · rw [heq, havail₀]
        exact h.creditsAvail
      · omega
    rw [hr.recvState_eq]
    rw [hcum₀] at hcum
    exact ⟨h.keep hr hwindow ((hmax.trans hmax₀).trans h.creditsMax) hle (hcum ▸ h.cum) h.recorded,
      hcum⟩
  · obtain ⟨hkept, hsame⟩ := h.other hb hq hr hwindow rfl rfl
    exact ⟨hkept, by rw [hsame]⟩

end Receiving

/-! ### The run -/

/-- The credits of an ACK are all of the window or more than half of it. -/
def InRange (window : UInt32) (k : Nat) : Prop :=
  k ≤ window.toNat ∧ (k = window.toNat ∨ window.toNat / 2 < k)

/-- **The ACK built for the peer** advertises the present watermark, and credits in range. -/
theorem Receiving.advertises {τ : Type} [Dedup τ] {crates : Crates}
    {fromSlice : Bytes → Option CborValue} (h : CborCrates crates fromSlice)
    {tables : τ → DedupTables} {window : UInt32} {peer : Peer} {m : ReliabilityManager τ}
    (hm : Receiving tables window peer m) {now : Nat} {myNodeId : UInt64} {bytes : Bytes}
    (hres : (m.maybeBuildAck crates now peer myNodeId).1 = .ok (some bytes)) :
    ∃ k, Advertises crates fromSlice bytes (m.recvState 0 peer).cumProcessed k ∧
      InRange window k := by
  obtain ⟨hbuild, -⟩ := maybeBuildAck_built hres
  obtain ⟨k, hk, hrange⟩ := hm.refreshed_range now
  have hcum : (refreshed (m.recvState now peer)).cumProcessed
      = (m.recvState 0 peer).cumProcessed :=
    (refreshed_cumProcessed _).trans (recvState_now m now 0 peer).2.2
  have hsmall : (refreshed (m.recvState now peer)).cumProcessed < 2 ^ 64 := by
    rw [hcum]
    exact hm.recorded _ (DedupTables.isProcessed_iff.mpr (Or.inl hm.cum))
  have hack := advertises_of_buildAck h hbuild hk hsmall
    (Nat.lt_of_le_of_lt hrange.1 window.toNat_lt)
  rw [hcum] at hack
  exact ⟨k, hack, hrange⟩

/-- What holds of a run: its ACKs advertise credits in range and watermarks that do not
fall and are not above the present one. -/
structure RunOk {τ : Type} [Dedup τ] (crates : Crates) (fromSlice : Bytes → Option CborValue)
    (tables : τ → DedupTables) (window : UInt32) (peer : Peer) (s : ReceiverRun τ)
    (values : List (Nat × Nat)) : Prop where
  receiving : Receiving tables window peer s.manager
  advertises : List.Forall₂ (fun bytes v => Advertises crates fromSlice bytes v.1 v.2) s.acks values
  inRange : ∀ v ∈ values, InRange window v.2
  ordered : values.Pairwise fun v w => v.1 ≤ w.1
  below : ∀ v ∈ values, v.1 ≤ (s.manager.recvState 0 peer).cumProcessed

namespace RunOk

variable {τ : Type} [Dedup τ] {crates : Crates} {fromSlice : Bytes → Option CborValue}
  {tables : τ → DedupTables} {window : UInt32} {peer : Peer} {myNodeId : UInt64}
  {s s' : ReceiverRun τ} {values : List (Nat × Nat)}

/-- After a call that builds no ACK for the peer. -/
theorem same (hs : RunOk crates fromSlice tables window peer s values)
    (hkept : Receiving tables window peer s'.manager)
    (hcum : (s.manager.recvState 0 peer).cumProcessed
      ≤ (s'.manager.recvState 0 peer).cumProcessed) (hacks : s'.acks = s.acks) :
    RunOk crates fromSlice tables window peer s' values :=
  ⟨hkept, hacks ▸ hs.advertises, hs.inRange, hs.ordered,
    fun v hv => Nat.le_trans (hs.below v hv) hcum⟩

/-- After a call that builds one, with the present watermark. -/
theorem snoc (hs : RunOk crates fromSlice tables window peer s values)
    (hkept : Receiving tables window peer s'.manager)
    (hcum : (s'.manager.recvState 0 peer).cumProcessed
      = (s.manager.recvState 0 peer).cumProcessed) {bytes : Bytes} {k : Nat}
    (hacks : s'.acks = s.acks ++ [bytes])
    (hack : Advertises crates fromSlice bytes (s.manager.recvState 0 peer).cumProcessed k)
    (hrange : InRange window k) :
    RunOk crates fromSlice tables window peer s'
      (values ++ [((s.manager.recvState 0 peer).cumProcessed, k)]) := by
  refine ⟨hkept, ?_, ?_, ?_, ?_⟩
  · rw [hacks]
    exact List.rel_append hs.advertises (List.Forall₂.cons hack List.Forall₂.nil)
  · intro v hv
    rcases List.mem_append.mp hv with hold | hnew
    · exact hs.inRange v hold
    · rw [List.mem_singleton.mp hnew]
      exact hrange
  · refine List.pairwise_append.mpr ⟨hs.ordered, List.pairwise_singleton .., ?_⟩
    intro v hv w hw
    rw [List.mem_singleton.mp hw]
    exact hs.below v hv
  · intro v hv
    rw [hcum]
    rcases List.mem_append.mp hv with hold | hnew
    · exact hs.below v hold
    · rw [List.mem_singleton.mp hnew]

/-- **One call** keeps it, with at most one value more. -/
theorem step (h : CborCrates crates fromSlice) (hb : Backed tables)
    (hs : RunOk crates fromSlice tables window peer s values) (call : ReceiverCall) :
    ∃ values, RunOk crates fromSlice tables window peer (s.step crates myNodeId peer call)
      values := by
  cases call with
  | processDataFrame now q msgId payload =>
    obtain ⟨hkept, hcum⟩ := hs.receiving.processDataFrame hb now q msgId payload
    exact ⟨values, hs.same hkept hcum rfl⟩
  | maybeBuildAck now q =>
    obtain ⟨hkept, hcum⟩ := hs.receiving.maybeBuildAck hb crates now q myNodeId
    have hnone : (s.step crates myNodeId peer (.maybeBuildAck now q)).acks = s.acks →
        RunOk crates fromSlice tables window peer
          (s.step crates myNodeId peer (.maybeBuildAck now q)) values :=
      hs.same hkept (Nat.le_of_eq hcum.symm)
    cases hres : (s.manager.maybeBuildAck crates now q myNodeId).1 with
    | error e => exact ⟨values, hnone (by simp only [ReceiverRun.step, hres])⟩
    | ok built =>
      cases built with
      | none => exact ⟨values, hnone (by simp only [ReceiverRun.step, hres])⟩
      | some bytes =>
        by_cases hq : q = peer
        · subst hq
          obtain ⟨k, hack, hrange⟩ := hs.receiving.advertises h hres
          have hacks : (s.step crates myNodeId q (.maybeBuildAck now q)).acks
              = s.acks ++ [bytes] := by
            simp only [ReceiverRun.step, hres, if_true]
          exact ⟨_, hs.snoc hkept hcum hacks hack hrange⟩
        · exact ⟨values, hnone (by simp only [ReceiverRun.step, hres, if_neg hq])⟩

end RunOk

/-- **Advertised credits are in range.** In every run of `process_data_frame` and
`maybe_build_ack` from a new manager, on a record of 64-bit ids, the ACKs for a peer carry
credits of at most the window that are all of it or more than half of it, and watermarks
that never fall. Parsing the inner map gives exactly these values. -/
theorem advertised_in_range {τ : Type} [Dedup τ] (crates : Crates)
    (fromSlice : Bytes → Option CborValue) (h : CborCrates crates fromSlice)
    (tables : τ → DedupTables) (hb : Backed tables) (storage : τ) (peer : Peer)
    (hids : ∀ i, Dedup.isProcessed storage peer i = true → i < 2 ^ 64) (myNodeId : UInt64)
    (ackInterval : Nat) (ackBatchSize defaultRecvWindow : UInt32) (calls : List ReceiverCall) :
    ∃ values : List (Nat × Nat),
      List.Forall₂ (fun bytes v => Advertises crates fromSlice bytes v.1 v.2)
        (ReceiverRun.run crates myNodeId peer storage ackInterval ackBatchSize defaultRecvWindow
          calls).acks values ∧
      (∀ v ∈ values, InRange defaultRecvWindow v.2) ∧ values.Pairwise fun v w => v.1 ≤ w.1 := by
  have hstart : ∃ values, RunOk crates fromSlice tables defaultRecvWindow peer
      { manager := .new storage ackInterval ackBatchSize defaultRecvWindow, acks := [] }
      values := by
    refine ⟨[], ⟨rfl, rfl, Int.le_refl _, ?_, ?_⟩, List.Forall₂.nil, ?_, List.Pairwise.nil, ?_⟩
    · exact Nat.le_of_eq (hb.cumProcessed ..)
    · intro i hi
      exact hids i ((hb.isProcessed ..).trans hi)
    · simp
    · simp
  obtain ⟨values, hok⟩ := List.foldlRecOn (motive := fun s => ∃ values,
      RunOk crates fromSlice tables defaultRecvWindow peer s values) calls
    (ReceiverRun.step crates myNodeId peer) hstart
    fun s ⟨values, hs⟩ call _ => hs.step h hb call
  exact ⟨values, hok.advertises, hok.inRange, hok.ordered⟩

/-- Two messages, an ACK after each, on a window that the first overdraws. -/
theorem advertised_in_range_overdrawn :
    let s := ReceiverRun.run .flat 1 7 (MemoryStorage.new 8) 0 1 4
      [.processDataFrame 0 7 1 [1, 2, 3, 4, 5, 6], .maybeBuildAck 0 7,
       .processDataFrame 0 7 2 [7], .maybeBuildAck 0 7]
    s.acks.length = 2 ∧ ∃ values : List (Nat × Nat),
      List.Forall₂ (fun bytes v => Advertises .flat readMap bytes v.1 v.2) s.acks values ∧
      (∀ v ∈ values, InRange 4 v.2) ∧ values.Pairwise fun v w => v.1 ≤ w.1 := by
  intro s
  refine ⟨by decide +kernel, advertised_in_range .flat readMap flat_cborCrates _ memory_backed
    (MemoryStorage.new 8) 7 (fun i hi => ?_) 1 0 1 4 _⟩
  have hle := (DedupTables.isProcessed_iff (t := DedupTables.new 8)).mp hi
  rcases hle with hzero | hgap
  · have hcum : (DedupTables.new 8).cum 7 = 0 := rfl
    omega
  · exact absurd hgap (Finset.notMem_empty i)

end MeshCore.Session
