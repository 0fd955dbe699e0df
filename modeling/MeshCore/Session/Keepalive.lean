import MeshCore.Session.Lifecycle
import MeshCore.Wire.Cbor

/-!
# The frames of the handshake and the keepalive (`handshake.rs`, `keepalive.rs`)

A session writes frames of its own: a HELLO first, a PING whenever its interval has
passed, and a PONG for every PING it reads. They have metadata that does not depend on
anything but their type, so they can always be decoded (`sendHello_frame`,
`buildKeepalive_frame`).

Mirroring notes:
- `build_ping` and `build_pong` panic if the frame cannot be built, which is an error here;
  `Greets` says that it can.
- What `now_corr_id` gives is an argument, as is the time.
-/

namespace MeshCore.Session

open MeshCore.Lib MeshCore.Wire
open MeshCore.Topology (NodeId)

/-! ## The frames -/

/-- `send_hello`: the bytes it writes. -/
def sendHello (crates : Crates) (myNodeId : NodeId) : Except CodecError Bytes :=
  let fastHeader := FastHeader.new .hello myNodeId 0 0
  ((((FrameBuilder.new fastHeader).metaInsertStr "content-type" "application/x-hello").metaInsertU32
    "version" wireVersion.toUInt32).payload []).build crates (16 * 1024 * 1024)

/-- A frame of the keepalive, with a correlation ID and a content type. -/
def buildKeepalive (crates : Crates) (typ : FrameType) (contentType : String) (myNode : NodeId)
    (corrId : UInt64) : Except CodecError Bytes :=
  let fastHeader := { FastHeader.new typ myNode 0 0 with corrId }
  (((FrameBuilder.new fastHeader).metaInsertStr "content-type" contentType).payload []).build crates
    (1024 * 1024)

/-- `build_ping`. -/
def buildPing (crates : Crates) (myNode : NodeId) (corrId : UInt64) : Except CodecError Bytes :=
  buildKeepalive crates .ping "application/x-ping" myNode corrId

/-- `build_pong`. -/
def buildPong (crates : Crates) (myNode : NodeId) (corrId : UInt64) : Except CodecError Bytes :=
  buildKeepalive crates .pong "application/x-pong" myNode corrId

/-- What is assumed of `ciborium` here: the frames of a session can be built, and it writes
no more than plain CBOR. -/
structure Greets (crates : Crates) : Prop where
  hello : ∀ n, (sendHello crates n).isOk = true
  ping : ∀ n corrId, (buildPing crates n corrId).isOk = true
  pong : ∀ n corrId, (buildPong crates n corrId).isOk = true
  length : ∀ v bytes, crates.intoWriter v = some bytes → bytes.length ≤ (cborEncode v).length

/-- A frame without hint and checksum, with small metadata, can be decoded. -/
theorem build_small {crates : Crates}
    (hlength : ∀ v bytes, crates.intoWriter v = some bytes → bytes.length ≤ (cborEncode v).length)
    {fast : FastHeader} (hfast : fast.WellFormed) (hhint : fast.hdrHintLen = 0)
    (hflags : fast.flags.contains .hdrChecksum = false) {metadata : MetaBuilder} {body : Bytes}
    (hsmall : (cborEncode (textMap metadata.map)).length ≤ 1000) {maxFrame : Nat} {bytes : Bytes}
    (hmax : maxFrame ≤ defaultMaxFrameSize)
    (hbuild : FrameBuilder.build crates
      { fast, hintTlv := none, crypto := false, metadata, body } maxFrame = .ok bytes) :
    ∃ f : Frame, f.WellFormed ∧ f.fast = fast ∧ f.payloadOrCipher = body ∧ bytes = f.bytes := by
  rw [FrameBuilder.build_eq] at hbuild
  unfold FrameBuilder.finalMeta at hbuild
  rw [if_neg (by rw [hflags]; simp)] at hbuild
  cases hmeta : metadata.build crates with
  | error e =>
    rw [hmeta] at hbuild
    exact absurd hbuild (by simp)
  | ok metaRaw =>
    rw [hmeta] at hbuild
    dsimp only at hbuild
    split at hbuild
    next => exact absurd hbuild (by simp)
    next hsize =>
      have hraw : metaRaw.length ≤ 1000 :=
        Nat.le_trans (hlength _ _ (MetaBuilder.build_eq_ok hmeta)) hsmall
      refine ⟨Frame.new fast metaRaw body, ⟨⟨hfast, hhint, ?_⟩, ?_⟩, rfl, rfl,
        (Except.ok.inj hbuild).symm⟩
      · exact Nat.le_trans hraw (by decide)
      · exact Nat.le_trans (Nat.le_of_not_gt hsize) hmax

/-- A header as sessions fill it in. -/
theorem sessionHeader_wellFormed (typ : FrameType) (myNode : NodeId) (corrId : UInt64) :
    { FastHeader.new typ myNode 0 0 with corrId }.WellFormed :=
  ⟨rfl, by show Flags.empty.Defined; decide, rfl, by show (16 : UInt8) ≠ 0; decide⟩

theorem sessionHeader_unchecked (typ : FrameType) (myNode : NodeId) (corrId : UInt64) :
    { FastHeader.new typ myNode 0 0 with corrId }.flags.contains .hdrChecksum = false := by
  show Flags.empty.contains _ = false
  decide

/-- A HELLO can be decoded. -/
theorem sendHello_frame {crates : Crates} (h : Greets crates) (n : NodeId) :
    ∃ f : Frame, sendHello crates n = .ok f.bytes ∧ f.WellFormed ∧
      f.fast.typ = .hello ∧ f.fast.srcNode = n := by
  obtain ⟨bytes, hbytes⟩ := exists_of_isOk (h.hello n)
  have hsmall : (cborEncode (textMap ((MetaBuilder.new.insertStr "content-type"
      "application/x-hello").insertU32 "version" wireVersion.toUInt32).map)).length ≤ 1000 := by
    decide +kernel
  obtain ⟨f, hf, hfast, -, rfl⟩ := build_small h.length (sessionHeader_wellFormed .hello n 0) rfl
    (sessionHeader_unchecked .hello n 0) hsmall (by decide) hbytes
  exact ⟨f, hbytes, hf, by rw [hfast]; rfl, by rw [hfast]; rfl⟩

/-- A frame of the keepalive can be decoded. -/
theorem buildKeepalive_frame {crates : Crates}
    (hlength : ∀ v bytes, crates.intoWriter v = some bytes → bytes.length ≤ (cborEncode v).length)
    {typ : FrameType} {contentType : String} {n : NodeId} {corrId : UInt64}
    (hsmall : (cborEncode (textMap
      (MetaBuilder.new.insertStr "content-type" contentType).map)).length ≤ 1000)
    (hok : (buildKeepalive crates typ contentType n corrId).isOk = true) :
    ∃ f : Frame, buildKeepalive crates typ contentType n corrId = .ok f.bytes ∧ f.WellFormed ∧
      f.fast.typ = typ ∧ f.fast.srcNode = n ∧ f.fast.corrId = corrId := by
  obtain ⟨bytes, hbytes⟩ := exists_of_isOk hok
  obtain ⟨f, hf, hfast, -, rfl⟩ := build_small hlength (sessionHeader_wellFormed typ n corrId) rfl
    (sessionHeader_unchecked typ n corrId) hsmall (by decide) hbytes
  exact ⟨f, hbytes, hf, by rw [hfast]; rfl, by rw [hfast]; rfl, by rw [hfast]⟩

theorem buildPing_frame {crates : Crates} (h : Greets crates) (n : NodeId) (corrId : UInt64) :
    ∃ f : Frame, buildPing crates n corrId = .ok f.bytes ∧ f.WellFormed ∧
      f.fast.typ = .ping ∧ f.fast.srcNode = n ∧ f.fast.corrId = corrId :=
  buildKeepalive_frame h.length (by decide +kernel) (h.ping n corrId)

theorem buildPong_frame {crates : Crates} (h : Greets crates) (n : NodeId) (corrId : UInt64) :
    ∃ f : Frame, buildPong crates n corrId = .ok f.bytes ∧ f.WellFormed ∧
      f.fast.typ = .pong ∧ f.fast.srcNode = n ∧ f.fast.corrId = corrId :=
  buildKeepalive_frame h.length (by decide +kernel) (h.pong n corrId)

/-! ## The crates as they are -/

/-- Small metadata fits. -/
theorem build_isOk_small {fast : FastHeader} (hflags : fast.flags.contains .hdrChecksum = false)
    {metadata : MetaBuilder} {maxFrame : Nat}
    (hsmall : (cborEncode (textMap metadata.map)).length + 60 ≤ maxFrame) :
    (FrameBuilder.build .standard { fast, hintTlv := none, crypto := false, metadata, body := [] }
      maxFrame).isOk = true := by
  rw [FrameBuilder.build_eq]
  unfold FrameBuilder.finalMeta
  rw [if_neg (by rw [hflags]; simp)]
  have hmeta : metadata.build .standard = .ok (cborEncode (textMap metadata.map)) := rfl
  rw [hmeta]
  dsimp only
  rw [if_neg]
  · rfl
  · show ¬ 4 + 48 + 0 + 4 + (cborEncode (textMap metadata.map)).length + 0 > maxFrame
    omega

theorem greets_standard : Greets .standard where
  hello n := by
    have hsmall : (cborEncode (textMap ((MetaBuilder.new.insertStr "content-type"
        "application/x-hello").insertU32 "version" wireVersion.toUInt32).map)).length + 60
        ≤ 16 * 1024 * 1024 := by decide +kernel
    exact build_isOk_small (sessionHeader_unchecked .hello n 0) hsmall
  ping n corrId := by
    have hsmall : (cborEncode (textMap (MetaBuilder.new.insertStr "content-type"
        "application/x-ping").map)).length + 60 ≤ 1024 * 1024 := by decide +kernel
    exact build_isOk_small (sessionHeader_unchecked .ping n corrId) hsmall
  pong n corrId := by
    have hsmall : (cborEncode (textMap (MetaBuilder.new.insertStr "content-type"
        "application/x-pong").map)).length + 60 ≤ 1024 * 1024 := by decide +kernel
    exact build_isOk_small (sessionHeader_unchecked .pong n corrId) hsmall
  length v bytes h := Nat.le_of_eq (congrArg List.length (Option.some.inj h).symm)

end MeshCore.Session
