import MeshCore.Wire.Frame
import MeshCore.Lib.Collections

/-!
# The frame builder (`mesh-wire/src/codec.rs`)

`FrameBuilder` collects a header, metadata and a payload, and `build` turns them
into the bytes of a frame. It is fallible in two places: the CBOR encoder may
refuse the metadata, and `Frame::encode` refuses a frame above the given size.
`build_eq` gives the outcome of both in one equation.

Mirroring notes:
- The CBOR and CRC code is in other crates. It is a parameter (`Crates`), of
  which nothing is assumed here.
- `BTreeMap<String, _>` is a list in key order.
- No field of `CryptoParams` is read, since `seal_payload_static` returns its
  input; only whether they were set remains.
-/

namespace MeshCore.Wire

open MeshCore.Lib

/-- The values of `ciborium` and `serde_cbor` that occur in metadata. -/
inductive CborValue where
  | text (s : String)
  | integer (i : Int)
  | bytes (b : Bytes)
  | bool (b : Bool)
  | map (entries : List (CborValue × CborValue))

/-- What is used of other crates: `ciborium::into_writer`, `serde_cbor::to_vec`
and the checksum of `crc32fast` over everything the hasher was fed. -/
structure Crates where
  intoWriter : CborValue → Option Bytes
  toVec : CborValue → Option Bytes
  crc32 : Bytes → UInt32

/-! ### The encodings themselves

The crates write plain CBOR with definite lengths and shortest heads, and the
IEEE CRC-32. `Crates.standard` does the same, for concrete runs. -/

/-- The head of a CBOR item: major type and argument. -/
def cborHead (major n : Nat) : Bytes :=
  let initial (info : Nat) : UInt8 := UInt8.ofNat (32 * major + info)
  if n < 24 then [initial n]
  else if n < 2 ^ 8 then initial 24 :: putBE 1 n
  else if n < 2 ^ 16 then initial 25 :: putBE 2 n
  else if n < 2 ^ 32 then initial 26 :: putBE 4 n
  else initial 27 :: putBE 8 n

mutual

/-- A value as CBOR. -/
def cborEncode : CborValue → Bytes
  | .text s => cborHead 3 s.utf8ByteSize ++ s.toUTF8.data.toList
  | .integer i => if 0 ≤ i then cborHead 0 i.toNat else cborHead 1 (-1 - i).toNat
  | .bytes b => cborHead 2 b.length ++ b
  | .bool b => [if b then 0xF5 else 0xF4]
  | .map entries => cborHead 5 entries.length ++ cborEncodeEntries entries

/-- The entries of a map, in the order given. -/
def cborEncodeEntries : List (CborValue × CborValue) → Bytes
  | [] => []
  | (key, value) :: entries => cborEncode key ++ cborEncode value ++ cborEncodeEntries entries

end

/-- One bit of the CRC register. -/
def crc32Shift (crc : UInt32) : UInt32 :=
  if crc &&& 1 = 1 then (crc >>> 1) ^^^ 0xEDB88320 else crc >>> 1

/-- The CRC register after one more byte. -/
def crc32Byte (crc : UInt32) (byte : UInt8) : UInt32 :=
  Nat.repeat crc32Shift 8 (crc ^^^ byte.toUInt32)

/-- CRC-32 as `crc32fast` computes it. -/
def crc32Ieee (bytes : Bytes) : UInt32 :=
  bytes.foldl crc32Byte 0xFFFFFFFF ^^^ 0xFFFFFFFF

/-- The crates as they are. -/
def Crates.standard : Crates where
  intoWriter v := some (cborEncode v)
  toVec v := some (cborEncode v)
  crc32 := crc32Ieee

/-- `CodecError`. -/
inductive CodecError where
  | wire (e : WireError)
  | metaEncode
  | metaDecode
  | crypto
  deriving Repr, DecidableEq

/-- `MetaBuilder`. -/
structure MetaBuilder where
  map : BTreeMap String CborValue

namespace MetaBuilder

/-- `MetaBuilder::new`. -/
def new : MetaBuilder := ⟨[]⟩

/-- The three `insert_*` functions, at the value they wrap. -/
def insert (m : MetaBuilder) (key : String) (value : CborValue) : MetaBuilder :=
  ⟨m.map.insert (fun a b => a < b) key value⟩

/-- `MetaBuilder::insert_str`. -/
def insertStr (m : MetaBuilder) (key value : String) : MetaBuilder := m.insert key (.text value)

/-- `MetaBuilder::insert_u32`. -/
def insertU32 (m : MetaBuilder) (key : String) (value : UInt32) : MetaBuilder :=
  m.insert key (.integer value.toNat)

/-- `MetaBuilder::insert_bytes`. -/
def insertBytes (m : MetaBuilder) (key : String) (value : Bytes) : MetaBuilder :=
  m.insert key (.bytes value)

/-- `MetaBuilder::build`. -/
def build (crates : Crates) (m : MetaBuilder) : Except CodecError Bytes :=
  match crates.intoWriter (.map (m.map.map fun e => (.text e.1, e.2))) with
  | some buf => .ok buf
  | none => .error .metaEncode

end MetaBuilder

/-- `crc32c_fast_header`. -/
def crc32cFastHeader (crates : Crates) (fast : FastHeader) (hint : Option Bytes) : UInt32 :=
  crates.crc32 (fast.encode ++ hint.getD [])

/-- `FrameBuilder`. -/
structure FrameBuilder where
  fast : FastHeader
  hintTlv : Option Bytes
  crypto : Bool
  metadata : MetaBuilder
  body : Bytes

namespace FrameBuilder

/-- `FrameBuilder::new`. -/
def new (fast : FastHeader) : FrameBuilder :=
  { fast, hintTlv := none, crypto := false, metadata := .new, body := [] }

/-- `FrameBuilder::with_hint_tlv`. -/
def withHintTlv (b : FrameBuilder) (tlv : Bytes) : FrameBuilder :=
  { b with fast := { b.fast with hdrHintLen := UInt32.ofNat tlv.length }, hintTlv := some tlv }

/-- `FrameBuilder::with_crypto`. -/
def withCrypto (b : FrameBuilder) : FrameBuilder :=
  { b with fast := { b.fast with flags := b.fast.flags.union .e2eEnc }, crypto := true }

/-- `FrameBuilder::meta_insert_str`. -/
def metaInsertStr (b : FrameBuilder) (key value : String) : FrameBuilder :=
  { b with metadata := b.metadata.insertStr key value }

/-- `FrameBuilder::meta_insert_u32`. -/
def metaInsertU32 (b : FrameBuilder) (key : String) (value : UInt32) : FrameBuilder :=
  { b with metadata := b.metadata.insertU32 key value }

/-- `FrameBuilder::meta_insert_bytes`. -/
def metaInsertBytes (b : FrameBuilder) (key : String) (value : Bytes) : FrameBuilder :=
  { b with metadata := b.metadata.insertBytes key value }

/-- `FrameBuilder::payload`. -/
def payload (b : FrameBuilder) (payload : Bytes) : FrameBuilder := { b with body := payload }

/-- `FrameBuilder::seal_payload_static`: the payload as it is. -/
def sealPayloadStatic (payload : Bytes) : Except CodecError Bytes := .ok payload

/-- The metadata as `build` encodes it, with the header checksum if requested. -/
def finalMeta (crates : Crates) (b : FrameBuilder) : MetaBuilder :=
  if b.fast.flags.contains .hdrChecksum then
    b.metadata.insertU32 "hdr_csum" (crc32cFastHeader crates b.fast b.hintTlv)
  else b.metadata

/-- The frame `build` encodes, given its metadata bytes. -/
def frame (b : FrameBuilder) (metaRaw payloadOrCipher : Bytes) : Frame :=
  let frame := Frame.new b.fast metaRaw payloadOrCipher
  match b.hintTlv with
  | some hint => frame.withHint hint
  | none => frame

/-- `FrameBuilder::build`. -/
def build (crates : Crates) (b : FrameBuilder) (maxFrame : Nat) : Except CodecError Bytes := do
  let metaRaw ← (b.finalMeta crates).build crates
  let payloadOrCipher ← if b.crypto then sealPayloadStatic b.body else .ok b.body
  match (b.frame metaRaw payloadOrCipher).encode maxFrame with
  | .ok bytes => .ok bytes
  | .error e => .error (.wire e)

/-- The outcome of `build`: the metadata may not encode, and the frame may be
too large. -/
theorem build_eq (crates : Crates) (b : FrameBuilder) (maxFrame : Nat) :
    b.build crates maxFrame
      = match (b.finalMeta crates).build crates with
        | .error e => .error e
        | .ok metaRaw =>
          if (b.frame metaRaw b.body).encodedSize > maxFrame then
            .error (.wire (.size (b.frame metaRaw b.body).encodedSize))
          else .ok (b.frame metaRaw b.body).bytes := by
  unfold build
  cases hm : (b.finalMeta crates).build crates with
  | error e => rfl
  | ok metaRaw =>
    -- sealed or not, the payload is unchanged
    simp only [sealPayloadStatic, ite_self, bind, Except.bind, Frame.encode]
    by_cases hsize : (b.frame metaRaw b.body).encodedSize > maxFrame
    · simp only [if_pos hsize]
    · simp only [if_neg hsize]

end FrameBuilder

/-- A computation that can be seen to succeed has a result. -/
theorem exists_of_isOk {ε α : Type} {x : Except ε α} (h : x.isOk = true) : ∃ a, x = .ok a := by
  cases x with
  | ok a => exact ⟨a, rfl⟩
  | error e => exact absurd h (by simp [Except.isOk, Except.toBool])

end MeshCore.Wire
