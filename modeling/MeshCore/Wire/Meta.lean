import MeshCore.Wire.Codec
import MeshCore.Lib.OrderedMap

/-!
# Reading metadata back (`mesh-wire/src/codec.rs`)

`parse_meta` reads CBOR bytes into a map and `get_meta_str` a text out of it. On
what `MetaBuilder::build` writes, `parse_meta` gives the builder's own map
(`parseMeta_build`), provided that the CBOR reader undoes the writer.

Mirroring notes:
- `ciborium::from_reader` is a parameter. The values of types that no reader of
  metadata looks at (null, floats, arrays, tags) are given as a `bool`, which
  none of them looks at either.
- Rust orders strings by their UTF-8 bytes, which is the order of the code
  points, and so the order of Lean's strings.
-/

namespace MeshCore.Wire

open MeshCore.Lib

/-- The order of the keys. -/
def keyLt (a b : String) : Bool := a < b

theorem keyLt_strictOrder : StrictOrder keyLt where
  irrefl a := decide_eq_false (String.lt_irrefl a)
  trans _ _ _ hab hbc := decide_eq_true
    (String.lt_trans (of_decide_eq_true hab) (of_decide_eq_true hbc))
  total a b hne hab := by
    refine decide_eq_true ?_
    have hle : b ≤ a := String.not_lt.mp (of_decide_eq_false hab)
    by_contra hba
    exact hne (String.le_antisymm (String.not_lt.mp hba) hle)

/-- `parse_meta`. -/
def parseMeta (fromReader : Bytes → Option CborValue) (metaRaw : Bytes) :
    Except CodecError (BTreeMap String CborValue) :=
  match fromReader metaRaw with
  | some (.map entries) =>
    .ok (entries.foldl
      (fun result e =>
        match e.1 with
        | .text key => result.insert keyLt key e.2
        | _ => result) [])
  | _ => .error .metaDecode

/-- `get_meta_str`. -/
def getMetaStr (m : BTreeMap String CborValue) (key : String) : Option String :=
  match m.get key with
  | some (.text s) => some s
  | _ => none

/-- `get_meta_u32`. -/
def getMetaU32 (m : BTreeMap String CborValue) (key : String) : Option UInt32 :=
  match m.get key with
  | some (.integer i) => if 0 ≤ i ∧ i < 2 ^ 32 then some (UInt32.ofNat i.toNat) else none
  | _ => none

/-- A text or a byte string. -/
def CborValue.Plain : CborValue → Prop
  | .text _ => True
  | .bytes _ => True
  | _ => False

/-- What is assumed of `ciborium`: the reader undoes the writer on a map of text
keys to texts and byte strings, and keeps the order of its entries. -/
def ReadsBack (crates : Crates) (fromReader : Bytes → Option CborValue) : Prop :=
  ∀ (entries : List (String × CborValue)) (bytes : Bytes), (∀ e ∈ entries, e.2.Plain) →
    crates.intoWriter (.map (entries.map fun e => (.text e.1, e.2))) = some bytes →
    fromReader bytes = some (.map (entries.map fun e => (.text e.1, e.2)))

theorem MetaBuilder.build_eq_ok {crates : Crates} {m : MetaBuilder} {metaRaw : Bytes}
    (h : m.build crates = .ok metaRaw) :
    crates.intoWriter (.map (m.map.map fun e => (.text e.1, e.2))) = some metaRaw := by
  unfold MetaBuilder.build at h
  split at h
  next buf hbuf =>
    rw [hbuf, Except.ok.inj h]
  next => exact absurd h (by simp)

theorem MetaBuilder.build_of_write {crates : Crates} {m : MetaBuilder} {metaRaw : Bytes}
    (h : crates.intoWriter (.map (m.map.map fun e => (.text e.1, e.2))) = some metaRaw) :
    m.build crates = .ok metaRaw := by
  unfold MetaBuilder.build
  rw [h]

/-- A map in key order is read as it is. -/
theorem parseMeta_of_read {fromReader : Bytes → Option CborValue} {metaRaw : Bytes}
    {map : BTreeMap String CborValue} (hsorted : map.Sorted keyLt)
    (hread : fromReader metaRaw = some (.map (map.map fun e => (.text e.1, e.2)))) :
    parseMeta fromReader metaRaw = .ok map := by
  unfold parseMeta
  rw [hread]
  dsimp only
  rw [List.foldl_map]
  exact congrArg Except.ok (hsorted.insertAll_self keyLt_strictOrder)

/-- **What was built is what is read.** -/
theorem parseMeta_build {crates : Crates} {fromReader : Bytes → Option CborValue}
    (hread : ReadsBack crates fromReader) {m : MetaBuilder} {metaRaw : Bytes}
    (hbuild : m.build crates = .ok metaRaw) (hplain : ∀ e ∈ m.map, e.2.Plain)
    (hsorted : m.map.Sorted keyLt) : parseMeta fromReader metaRaw = .ok m.map :=
  parseMeta_of_read hsorted (hread m.map metaRaw hplain (MetaBuilder.build_eq_ok hbuild))

end MeshCore.Wire
