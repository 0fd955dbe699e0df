import MeshCore.Lib.Endian

/-!
# The fast header (`mesh-wire/src/header.rs`)

The fixed 48-byte header every frame starts with: its fields, the conversions
of the three enumerated fields, and the big-endian `encode` and `decode`.

Decoding runs in `Buf`, a cursor over the bytes that remain. Rust's
`Bytes::get_u16` and `split_to` panic when the buffer is too short; here that
is the outcome `Fault.panic`, kept apart from the `WireError`s the code
returns on purpose, so that "the decoder never reads out of range" can be
stated at all.

Mirroring notes:
- `Flags` is the `bitflags` type: a raw `u16`, of which `from_bits` accepts
  exactly the values with no bit outside the six defined ones.
- `FrameType` and `StatusCode` are `repr(u8)` enumerations; `toU8` is the
  `as u8` cast and `tryFrom` the `TryFrom<u8>` implementation.

`decode_encode` and `encode_of_decode` are the two directions of the round
trip; the frame codec and everything above it use only these two.
-/

namespace MeshCore.Wire

open MeshCore.Lib

/-- A byte buffer (`Bytes`, `BytesMut`, `&[u8]`). -/
abbrev Bytes := List UInt8

/-- `WireError`. -/
inductive WireError where
  | incomplete
  | version (ver : UInt8)
  | ttl
  | size (n : Nat)
  | crypto
  | badMeta
  | hdrCsum
  | reserved
  | unknownType (value : UInt8)
  | unknownCode (value : UInt8)
  | malformed
  deriving Repr, DecidableEq

/-- How a decoding step fails: a `WireError` the code returns, or a panic of
the buffer primitive it calls. -/
inductive Fault where
  | wire (e : WireError)
  | panic
  deriving Repr, DecidableEq

/-! ## The cursor -/

/-- A computation that consumes bytes from the front of a buffer. -/
abbrev Buf := StateT Bytes (Except Fault)

/-- Read `k` bytes big-endian and convert; a short buffer is a panic. -/
def getUInt {α : Type} (k : Nat) (conv : Nat → α) : Buf α := fun buf =>
  match readBE k buf with
  | some (n, rest) => .ok (conv n, rest)
  | none => .error .panic

def getU8 : Buf UInt8 := getUInt 1 UInt8.ofNat
def getU16 : Buf UInt16 := getUInt 2 UInt16.ofNat
def getU32 : Buf UInt32 := getUInt 4 UInt32.ofNat
def getU64 : Buf UInt64 := getUInt 8 UInt64.ofNat

/-- `Bytes::split_to`: cut the first `n` bytes off; a short buffer is a panic. -/
def splitTo (n : Nat) : Buf Bytes := fun buf =>
  match splitAt? n buf with
  | some (front, rest) => .ok (front, rest)
  | none => .error .panic

/-- `if c { return Err(e) }`. -/
def failIf (c : Prop) [Decidable c] (e : WireError) : Buf Unit :=
  if c then throw (.wire e) else pure ()

/-- The `?` on a conversion that does not touch the buffer. -/
def liftWire {α : Type} : Except WireError α → Buf α
  | .ok a => pure a
  | .error e => throw (.wire e)

def putU8 (x : UInt8) : Bytes := putBE 1 x.toNat
def putU16 (x : UInt16) : Bytes := putBE 2 x.toNat
def putU32 (x : UInt32) : Bytes := putBE 4 x.toNat
def putU64 (x : UInt64) : Bytes := putBE 8 x.toNat

@[simp] theorem putU8_length (x : UInt8) : (putU8 x).length = 1 := putBE_length 1 _
@[simp] theorem putU16_length (x : UInt16) : (putU16 x).length = 2 := putBE_length 2 _
@[simp] theorem putU32_length (x : UInt32) : (putU32 x).length = 4 := putBE_length 4 _
@[simp] theorem putU64_length (x : UInt64) : (putU64 x).length = 8 := putBE_length 8 _

/-- A read succeeds exactly on a buffer that starts with the written value, for
any conversion `conv` with inverse `val` on the width. -/
theorem getUInt_eq_ok {α : Type} {k : Nat} {conv : Nat → α} {val : α → Nat}
    (hval : ∀ x, val x < 256 ^ k) (hconv : ∀ x, conv (val x) = x)
    (hinv : ∀ n, n < 256 ^ k → val (conv n) = n) {buf rest : Bytes} {x : α} :
    getUInt k conv buf = .ok (x, rest) ↔ buf = putBE k (val x) ++ rest := by
  constructor
  · intro h
    unfold getUInt at h
    split at h
    next n rest' hread =>
      obtain ⟨hx, hr⟩ := Prod.mk.inj (Except.ok.inj h)
      obtain ⟨hbuf, hlt⟩ := readBE_eq_some.mp hread
      rw [← hx, ← hr, hinv n hlt]
      exact hbuf
    next => exact absurd h (by simp)
  · rintro rfl
    unfold getUInt
    rw [readBE_putBE_append, Nat.mod_eq_of_lt (hval x)]
    show Except.ok (conv (val x), rest) = .ok (x, rest)
    rw [hconv]

theorem getU8_eq_ok {buf rest : Bytes} {x : UInt8} :
    getU8 buf = .ok (x, rest) ↔ buf = putU8 x ++ rest :=
  getUInt_eq_ok (fun x => x.toNat_lt) (fun _ => UInt8.ofNat_toNat)
    (fun _ h => UInt8.toNat_ofNat_of_lt' h)

theorem getU16_eq_ok {buf rest : Bytes} {x : UInt16} :
    getU16 buf = .ok (x, rest) ↔ buf = putU16 x ++ rest :=
  getUInt_eq_ok (fun x => x.toNat_lt) (fun _ => UInt16.ofNat_toNat)
    (fun _ h => UInt16.toNat_ofNat_of_lt' h)

theorem getU32_eq_ok {buf rest : Bytes} {x : UInt32} :
    getU32 buf = .ok (x, rest) ↔ buf = putU32 x ++ rest :=
  getUInt_eq_ok (fun x => x.toNat_lt) (fun _ => UInt32.ofNat_toNat)
    (fun _ h => UInt32.toNat_ofNat_of_lt' h)

theorem getU64_eq_ok {buf rest : Bytes} {x : UInt64} :
    getU64 buf = .ok (x, rest) ↔ buf = putU64 x ++ rest :=
  getUInt_eq_ok (fun x => x.toNat_lt) (fun _ => UInt64.ofNat_toNat)
    (fun _ h => UInt64.toNat_ofNat_of_lt' h)

theorem splitTo_eq_ok {n : Nat} {buf front rest : Bytes} :
    splitTo n buf = .ok (front, rest) ↔ buf = front ++ rest ∧ front.length = n := by
  rw [← splitAt?_eq_some]
  unfold splitTo
  cases hs : splitAt? n buf with
  | none => simp
  | some p => obtain ⟨f, r⟩ := p; simp

/-- A sequence succeeds when its first part does and the rest succeeds on what
the first part left. Every inversion of a decoder goes through this. -/
theorem bind_eq_ok {α β : Type} {x : Buf α} {f : α → Buf β} {s : Bytes} {r : β × Bytes} :
    (x >>= f) s = .ok r ↔ ∃ a s', x s = .ok (a, s') ∧ f a s' = .ok r := by
  show Except.bind (x s) (fun p => f p.1 p.2) = .ok r ↔ _
  cases x s with
  | error e => simp [Except.bind]
  | ok p => obtain ⟨a, s'⟩ := p; simp [Except.bind]

theorem get_eq_ok {s a s' : Bytes} : (get : Buf Bytes) s = .ok (a, s') ↔ a = s ∧ s' = s := by
  show Except.ok (s, s) = Except.ok (a, s') ↔ _
  simp only [Except.ok.injEq, Prod.mk.injEq, eq_comm]

theorem pure_eq_ok {α : Type} {a b : α} {s s' : Bytes} :
    (pure a : Buf α) s = .ok (b, s') ↔ b = a ∧ s' = s := by
  show Except.ok (a, s) = Except.ok (b, s') ↔ _
  simp only [Except.ok.injEq, Prod.mk.injEq, eq_comm]

theorem failIf_eq_ok {c : Prop} [Decidable c] {e : WireError} {u : Unit} {s s' : Bytes} :
    failIf c e s = .ok (u, s') ↔ ¬ c ∧ s' = s := by
  unfold failIf
  by_cases hc : c
  · rw [if_pos hc]
    show Except.error _ = Except.ok _ ↔ _
    simp [hc]
  · rw [if_neg hc, pure_eq_ok]
    simp [hc]

theorem liftWire_eq_ok {α : Type} {x : Except WireError α} {a : α} {s s' : Bytes} :
    liftWire x s = .ok (a, s') ↔ x = .ok a ∧ s' = s := by
  cases x with
  | error e =>
    show Except.error _ = Except.ok _ ↔ _
    simp
  | ok b => rw [liftWire, pure_eq_ok, Except.ok.injEq, eq_comm]

/-! ## Enumerated fields -/

/-- `FrameType`: the session frames, the gossip and membership range `0x20..0x2F` and the
consensus range `0x30..0x3F`. -/
inductive FrameType where
  | data | meshAck | clientAck | credit
  | ping | pong | hello | resume
  | drain | bye | topologyUpdate | topologyRequest
  | gossipSummary | gossipDelta | gossipPullReq | gossipPullResp
  | membershipAlive | membershipSuspect | membershipConfirmed | membershipJoin
  | membershipLeave | probePing | probeAck | probePingReq
  | broadcastMsg | broadcastPrune | stateSummaryBloom | gossipNack
  | consPrevoteReq | consPrevoteResp | consVoteReq | consVoteResp
  | consAppendEntries | consAppendResp | consInstallSnapshot | consSnapshotAck
  | consTimeoutNow | consReadIndexReq | consReadIndexResp | consConfigChange
  | consClientPropose | consClientResult | consNack | consExtension
  deriving Repr, DecidableEq

/-- The `as u8` cast of a frame type. -/
def FrameType.toU8 : FrameType → UInt8
  | .data => 0x00
  | .meshAck => 0x01
  | .clientAck => 0x02
  | .credit => 0x03
  | .ping => 0x04
  | .pong => 0x05
  | .hello => 0x06
  | .resume => 0x07
  | .drain => 0x08
  | .bye => 0x09
  | .topologyUpdate => 0x0A
  | .topologyRequest => 0x0B
  | .gossipSummary => 0x20
  | .gossipDelta => 0x21
  | .gossipPullReq => 0x22
  | .gossipPullResp => 0x23
  | .membershipAlive => 0x24
  | .membershipSuspect => 0x25
  | .membershipConfirmed => 0x26
  | .membershipJoin => 0x27
  | .membershipLeave => 0x28
  | .probePing => 0x29
  | .probeAck => 0x2A
  | .probePingReq => 0x2B
  | .broadcastMsg => 0x2C
  | .broadcastPrune => 0x2D
  | .stateSummaryBloom => 0x2E
  | .gossipNack => 0x2F
  | .consPrevoteReq => 0x30
  | .consPrevoteResp => 0x31
  | .consVoteReq => 0x32
  | .consVoteResp => 0x33
  | .consAppendEntries => 0x34
  | .consAppendResp => 0x35
  | .consInstallSnapshot => 0x36
  | .consSnapshotAck => 0x37
  | .consTimeoutNow => 0x38
  | .consReadIndexReq => 0x39
  | .consReadIndexResp => 0x3A
  | .consConfigChange => 0x3B
  | .consClientPropose => 0x3C
  | .consClientResult => 0x3D
  | .consNack => 0x3E
  | .consExtension => 0x3F

/-- `TryFrom<u8> for FrameType`. -/
def FrameType.tryFrom (value : UInt8) : Except WireError FrameType :=
  match value with
  | 0x00 => .ok .data
  | 0x01 => .ok .meshAck
  | 0x02 => .ok .clientAck
  | 0x03 => .ok .credit
  | 0x04 => .ok .ping
  | 0x05 => .ok .pong
  | 0x06 => .ok .hello
  | 0x07 => .ok .resume
  | 0x08 => .ok .drain
  | 0x09 => .ok .bye
  | 0x0A => .ok .topologyUpdate
  | 0x0B => .ok .topologyRequest
  | 0x20 => .ok .gossipSummary
  | 0x21 => .ok .gossipDelta
  | 0x22 => .ok .gossipPullReq
  | 0x23 => .ok .gossipPullResp
  | 0x24 => .ok .membershipAlive
  | 0x25 => .ok .membershipSuspect
  | 0x26 => .ok .membershipConfirmed
  | 0x27 => .ok .membershipJoin
  | 0x28 => .ok .membershipLeave
  | 0x29 => .ok .probePing
  | 0x2A => .ok .probeAck
  | 0x2B => .ok .probePingReq
  | 0x2C => .ok .broadcastMsg
  | 0x2D => .ok .broadcastPrune
  | 0x2E => .ok .stateSummaryBloom
  | 0x2F => .ok .gossipNack
  | 0x30 => .ok .consPrevoteReq
  | 0x31 => .ok .consPrevoteResp
  | 0x32 => .ok .consVoteReq
  | 0x33 => .ok .consVoteResp
  | 0x34 => .ok .consAppendEntries
  | 0x35 => .ok .consAppendResp
  | 0x36 => .ok .consInstallSnapshot
  | 0x37 => .ok .consSnapshotAck
  | 0x38 => .ok .consTimeoutNow
  | 0x39 => .ok .consReadIndexReq
  | 0x3A => .ok .consReadIndexResp
  | 0x3B => .ok .consConfigChange
  | 0x3C => .ok .consClientPropose
  | 0x3D => .ok .consClientResult
  | 0x3E => .ok .consNack
  | 0x3F => .ok .consExtension
  | v => .error (.unknownType v)

/-- `StatusCode`. -/
inductive StatusCode where
  | ok | retryable | fatal | busy | unsupported
  deriving Repr, DecidableEq

/-- The `as u8` cast of a status code. -/
def StatusCode.toU8 : StatusCode → UInt8
  | .ok => 0
  | .retryable => 1
  | .fatal => 2
  | .busy => 3
  | .unsupported => 4

/-- `TryFrom<u8> for StatusCode`. -/
def StatusCode.tryFrom (value : UInt8) : Except WireError StatusCode :=
  match value with
  | 0 => .ok .ok
  | 1 => .ok .retryable
  | 2 => .ok .fatal
  | 3 => .ok .busy
  | 4 => .ok .unsupported
  | v => .error (.unknownCode v)

/-- A statement about every byte is a statement about 256 numbers. -/
theorem forall_u8 {P : UInt8 → Prop} (h : ∀ n : Fin 256, P (UInt8.ofNat n.val)) (b : UInt8) :
    P b := by
  have := h ⟨b.toNat, b.toNat_lt⟩
  rwa [UInt8.ofNat_toNat] at this

theorem FrameType.tryFrom_toU8 (t : FrameType) : FrameType.tryFrom t.toU8 = .ok t := by
  cases t <;> rfl

theorem StatusCode.tryFrom_toU8 (c : StatusCode) : StatusCode.tryFrom c.toU8 = .ok c := by
  cases c <;> rfl

theorem FrameType.toU8_of_tryFrom {b : UInt8} {t : FrameType} (h : FrameType.tryFrom b = .ok t) :
    t.toU8 = b := by
  have key : ∀ b : UInt8, ((FrameType.tryFrom b).map FrameType.toU8).toOption.getD b = b :=
    forall_u8 (by decide +kernel)
  have := key b
  rwa [h] at this

theorem StatusCode.toU8_of_tryFrom {b : UInt8} {c : StatusCode}
    (h : StatusCode.tryFrom b = .ok c) : c.toU8 = b := by
  have key : ∀ b : UInt8, ((StatusCode.tryFrom b).map StatusCode.toU8).toOption.getD b = b :=
    forall_u8 (by decide +kernel)
  have := key b
  rwa [h] at this

/-! ## Flags -/

/-- `Flags`: the raw bits, defined or not. -/
structure Flags where
  bits : UInt16
  deriving Repr, DecidableEq

namespace Flags

def chunked : Flags := ⟨(1 : UInt16) <<< 0⟩
def chunkEnd : Flags := ⟨(1 : UInt16) <<< 1⟩
def e2eEnc : Flags := ⟨(1 : UInt16) <<< 2⟩
def compressed : Flags := ⟨(1 : UInt16) <<< 3⟩
def routeLock : Flags := ⟨(1 : UInt16) <<< 4⟩
def hdrChecksum : Flags := ⟨(1 : UInt16) <<< 5⟩

def empty : Flags := ⟨0⟩

/-- `|=`. -/
def union (a b : Flags) : Flags := ⟨a.bits ||| b.bits⟩

/-- `contains`: every bit of `b` is set in `a`. -/
def contains (a b : Flags) : Bool := a.bits &&& b.bits == b.bits

/-- Every defined flag. -/
def all : Flags :=
  chunked |>.union chunkEnd |>.union e2eEnc |>.union compressed |>.union routeLock
    |>.union hdrChecksum

/-- Only defined bits are set. -/
def Defined (f : Flags) : Prop := f.bits &&& all.bits = f.bits

instance (f : Flags) : Decidable f.Defined := inferInstanceAs (Decidable (_ = _))

/-- `from_bits`: `None` when an undefined bit is set. -/
def fromBits (bits : UInt16) : Option Flags :=
  if Defined ⟨bits⟩ then some ⟨bits⟩ else none

theorem fromBits_eq_some {bits : UInt16} {f : Flags} :
    fromBits bits = some f ↔ f.bits = bits ∧ f.Defined := by
  unfold fromBits
  constructor
  · intro h
    split at h
    next hd => rw [← Option.some.inj h]; exact ⟨rfl, hd⟩
    next => exact absurd h (by simp)
  · rintro ⟨rfl, hd⟩
    rw [if_pos hd]

theorem contains_iff {a b : Flags} : a.contains b = true ↔
    ∀ i, b.bits.toBitVec.getLsbD i = true → a.bits.toBitVec.getLsbD i = true := by
  unfold contains
  rw [beq_iff_eq, ← UInt16.toBitVec_inj]
  refine ⟨fun h i hi => ?_, fun h => BitVec.eq_of_getLsbD_eq fun i _ => ?_⟩
  · rw [← h, UInt16.toBitVec_and, BitVec.getLsbD_and, Bool.and_eq_true] at hi
    exact hi.1
  · rw [UInt16.toBitVec_and, BitVec.getLsbD_and]
    cases hb : b.bits.toBitVec.getLsbD i with
    | false => exact Bool.and_false _
    | true => rw [h i hb, Bool.and_self]

theorem contains_union_right (a b : Flags) : (a.union b).contains b = true := by
  refine contains_iff.mpr fun i hi => ?_
  rw [union, UInt16.toBitVec_or, BitVec.getLsbD_or, hi, Bool.or_true]

theorem contains_union_left {a b : Flags} (c : Flags) (h : a.contains b = true) :
    (a.union c).contains b = true := by
  refine contains_iff.mpr fun i hi => ?_
  rw [union, UInt16.toBitVec_or, BitVec.getLsbD_or, contains_iff.mp h i hi, Bool.true_or]

theorem union_and (a b : Flags) (mask : UInt16) :
    (a.union b).bits &&& mask = a.bits &&& mask ||| b.bits &&& mask :=
  UInt16.toBitVec_inj.mp BitVec.and_or_distrib_right

/-- A flag that is set does not set another one. -/
theorem contains_union_of_disjoint {a b c : Flags} (h : c.bits &&& b.bits = 0) :
    (a.union c).contains b = a.contains b := by
  unfold contains
  rw [union_and, h, UInt16.or_zero]

theorem Defined.union {a b : Flags} (ha : a.Defined) (hb : b.Defined) : (a.union b).Defined := by
  show _ &&& _ = _
  rw [union_and, ha, hb]
  rfl

end Flags

/-! ## The header -/

/-- `WIRE_VERSION`. -/
def wireVersion : UInt8 := 1

/-- `FAST_HEADER_SIZE`. -/
def fastHeaderSize : Nat := 48

/-- `FastHeader`. -/
structure FastHeader where
  ver : UInt8
  typ : FrameType
  flags : Flags
  code : StatusCode
  ttl : UInt8
  reserved0 : UInt16
  msgId : UInt64
  corrId : UInt64
  srcNode : UInt64
  dstNode : UInt64
  route : UInt32
  hdrHintLen : UInt32
  deriving Repr, DecidableEq

namespace FastHeader

/-- `FastHeader::new`: the defaults, with a TTL of 16. -/
def new (typ : FrameType) (srcNode dstNode msgId : UInt64) : FastHeader :=
  { ver := wireVersion, typ, flags := .empty, code := .ok, ttl := 16, reserved0 := 0, msgId,
    corrId := 0, srcNode, dstNode, route := 0, hdrHintLen := 0 }

/-- `FastHeader::encode`: the bytes it appends. -/
def encode (h : FastHeader) : Bytes :=
  putU8 h.ver ++ (putU8 h.typ.toU8 ++ (putU16 h.flags.bits ++ (putU8 h.code.toU8 ++
    (putU8 h.ttl ++ (putU16 h.reserved0 ++ (putU64 h.msgId ++ (putU64 h.corrId ++
      (putU64 h.srcNode ++ (putU64 h.dstNode ++ (putU32 h.route ++ putU32 h.hdrHintLen))))))))))

@[simp] theorem encode_length (h : FastHeader) : h.encode.length = fastHeaderSize := by
  simp only [encode, List.length_append, putU8_length, putU16_length, putU32_length,
    putU64_length]
  rfl

/-- `FastHeader::decode`. -/
def decode : Buf FastHeader := do
  let buf ← get
  failIf (buf.length < fastHeaderSize) .incomplete
  let ver ← getU8
  failIf (ver ≠ wireVersion) (.version ver)
  let typ ← liftWire (FrameType.tryFrom (← getU8))
  let flags ← liftWire ((Flags.fromBits (← getU16)).elim (.error .reserved) .ok)
  let code ← liftWire (StatusCode.tryFrom (← getU8))
  let ttl ← getU8
  let reserved0 ← getU16
  failIf (reserved0 ≠ 0) .reserved
  failIf (ttl = 0) .ttl
  let msgId ← getU64
  let corrId ← getU64
  let srcNode ← getU64
  let dstNode ← getU64
  let route ← getU32
  let hdrHintLen ← getU32
  return { ver, typ, flags, code, ttl, reserved0, msgId, corrId, srcNode, dstNode, route,
           hdrHintLen }

/-- What `decode` demands of a header: the version, the defined flags, a zero
reserved field and a positive TTL. -/
structure WellFormed (h : FastHeader) : Prop where
  ver : h.ver = wireVersion
  flags : h.flags.Defined
  reserved0 : h.reserved0 = 0
  ttl : h.ttl ≠ 0

/-- `from_bits(..).ok_or(Reserved)`. -/
theorem fromBits_ok_iff {bits : UInt16} {f : Flags} :
    (Flags.fromBits bits).elim (Except.error WireError.reserved) Except.ok = .ok f ↔
      f.bits = bits ∧ f.Defined := by
  rw [← Flags.fromBits_eq_some]
  cases Flags.fromBits bits with
  | none => simp
  | some g => simp

/-- Running `decode` forwards on an encoded header. -/
theorem decode_encode {h : FastHeader} (hw : h.WellFormed) (rest : Bytes) :
    decode (h.encode ++ rest) = .ok (h, rest) := by
  have hlen : ¬ (h.encode ++ rest).length < fastHeaderSize := by
    rw [List.length_append, encode_length]
    omega
  unfold decode
  simp only [bind_eq_ok, get_eq_ok, failIf_eq_ok, getU8_eq_ok, getU16_eq_ok, getU32_eq_ok,
    getU64_eq_ok, liftWire_eq_ok, pure_eq_ok, fromBits_ok_iff]
  refine ⟨_, _, ⟨rfl, rfl⟩, (), _, ⟨hlen, rfl⟩, h.ver, _, ?_, (), _, ⟨not_not.mpr hw.ver, rfl⟩,
    h.typ.toU8, _, rfl, h.typ, _, ⟨FrameType.tryFrom_toU8 h.typ, rfl⟩,
    h.flags.bits, _, rfl, h.flags, _, ⟨⟨rfl, hw.flags⟩, rfl⟩,
    h.code.toU8, _, rfl, h.code, _, ⟨StatusCode.tryFrom_toU8 h.code, rfl⟩,
    h.ttl, _, rfl, h.reserved0, _, rfl, (), _, ⟨not_not.mpr hw.reserved0, rfl⟩, (), _,
    ⟨hw.ttl, rfl⟩, h.msgId, _, rfl, h.corrId, _, rfl, h.srcNode, _, rfl, h.dstNode, _, rfl,
    h.route, _, rfl, h.hdrHintLen, _, rfl, rfl, rfl⟩
  simp only [encode, List.append_assoc]

/-- Running `decode` backwards: what it accepted is the encoding of what it
returned. -/
theorem encode_of_decode {buf rest : Bytes} {h : FastHeader} (hd : decode buf = .ok (h, rest)) :
    buf = h.encode ++ rest ∧ h.WellFormed := by
  unfold decode at hd
  simp only [bind_eq_ok, get_eq_ok, failIf_eq_ok, getU8_eq_ok, getU16_eq_ok, getU32_eq_ok,
    getU64_eq_ok, liftWire_eq_ok, pure_eq_ok, fromBits_ok_iff] at hd
  -- one equation for each step: what the step left of the buffer
  obtain ⟨_, _, ⟨-, b0⟩, _, _, ⟨-, b1⟩, ver, _, b2, _, _, ⟨hver, b3⟩, hd⟩ := hd
  obtain ⟨typ8, _, b4, typ, _, ⟨htyp, b5⟩, bits, _, b6, flags, _, ⟨⟨hbits, hflags⟩, b7⟩, hd⟩ := hd
  obtain ⟨code8, _, b8, code, _, ⟨hcode, b9⟩, ttl, _, b10, res, _, b11, _, _, ⟨hres, b12⟩, hd⟩ := hd
  obtain ⟨_, _, ⟨httl, b13⟩, msgId, _, b14, corrId, _, b15, src, _, b16, dst, _, b17, hd⟩ := hd
  obtain ⟨route, _, b18, hint, _, b19, hh, hrest⟩ := hd
  rw [hh]
  refine ⟨?_, not_not.mp hver, hflags, not_not.mp hres, httl⟩
  simp only [encode, List.append_assoc, FrameType.toU8_of_tryFrom htyp, hbits,
    StatusCode.toU8_of_tryFrom hcode]
  rw [← b0, ← b1, b2, ← b3, b4, ← b5, b6, ← b7, b8, ← b9, b10, b11, ← b12, ← b13, b14, b15,
    b16, b17, b18, b19, hrest]

/-- **The header round trip.** `decode` accepts exactly the buffers that start
with the encoding of a well-formed header, and gives that header back. -/
theorem decode_eq_ok {buf rest : Bytes} {h : FastHeader} :
    decode buf = .ok (h, rest) ↔ buf = h.encode ++ rest ∧ h.WellFormed :=
  ⟨encode_of_decode, fun ⟨hbuf, hw⟩ => hbuf ▸ decode_encode hw rest⟩

end FastHeader

end MeshCore.Wire
