import MeshCore.Wire.Codec
import MeshCore.Lib.OrderedMap

/-!
# Reading CBOR maps of texts

A reader for flat maps, that is of texts to integers, texts, byte strings and
booleans, as long as CBOR can represent them. It undoes `cborEncode` on these
(`readMap_encode`). `Crates.flat` are the crates restricted to such maps, for
concrete runs; what is assumed of the crates elsewhere (`CborCrates`) holds of them.
-/

namespace MeshCore.Wire

open MeshCore.Lib

/-- The head of an item: major type and argument. -/
def readHead : Bytes → Option (Nat × Nat × Bytes)
  | [] => none
  | initial :: rest =>
    let major := initial.toNat / 32
    let info := initial.toNat % 32
    if info < 24 then some (major, info, rest)
    else if info < 28 then
      match readBE (2 ^ (info - 24)) rest with
      | some (n, rest) => some (major, n, rest)
      | none => none
    else none

/-- An item that is not a map. -/
def readItem (buf : Bytes) : Option (CborValue × Bytes) := do
  let (major, n, rest) ← readHead buf
  match major with
  | 0 => some (.integer n, rest)
  | 1 => some (.integer (-1 - n), rest)
  | 2 =>
    let (bytes, rest) ← splitAt? n rest
    some (.bytes bytes, rest)
  | 3 =>
    let (bytes, rest) ← splitAt? n rest
    let s ← String.fromUTF8? ⟨bytes.toArray⟩
    some (.text s, rest)
  | 7 =>
    if n = 20 then some (.bool false, rest)
    else if n = 21 then some (.bool true, rest)
    else none
  | _ => none

def readEntries : Nat → Bytes → Option (List (CborValue × CborValue) × Bytes)
  | 0, buf => some ([], buf)
  | n + 1, buf => do
    let (key, buf) ← readItem buf
    let (value, buf) ← readItem buf
    let (entries, buf) ← readEntries n buf
    return ((key, value) :: entries, buf)

/-- A buffer that holds one map. -/
def readMap (buf : Bytes) : Option CborValue := do
  let (major, n, rest) ← readHead buf
  let (entries, rest) ← readEntries n rest
  if major = 5 ∧ rest = [] then some (.map entries) else none

/-- What fits an item that is not a map. -/
def CborValue.Fits : CborValue → Prop
  | .text s => s.utf8ByteSize < 2 ^ 64
  | .integer i => -2 ^ 64 ≤ i ∧ i < 2 ^ 64
  | .bytes b => b.length < 2 ^ 64
  | .bool _ => True
  | .map _ => False

instance (v : CborValue) : Decidable v.Fits :=
  match v with
  | .text s => inferInstanceAs (Decidable (s.utf8ByteSize < 2 ^ 64))
  | .integer i => inferInstanceAs (Decidable (-2 ^ 64 ≤ i ∧ i < 2 ^ 64))
  | .bytes b => inferInstanceAs (Decidable (b.length < 2 ^ 64))
  | .bool _ => isTrue trivial
  | .map _ => isFalse id

/-! ## What was written is read -/

theorem readHead_cborHead {major n : Nat} (hmajor : major < 8) (hn : n < 2 ^ 64) (rest : Bytes) :
    readHead (cborHead major n ++ rest) = some (major, n, rest) := by
  have hinitial : ∀ info, info < 32 →
      (UInt8.ofNat (32 * major + info)).toNat / 32 = major ∧
        (UInt8.ofNat (32 * major + info)).toNat % 32 = info := by
    intro info hinfo
    rw [UInt8.toNat_ofNat']
    omega
  unfold cborHead
  dsimp only
  split_ifs with h1 h2 h3 h4
  · obtain ⟨hdiv, hmod⟩ := hinitial n (by omega)
    simp only [List.cons_append, List.nil_append, readHead, hdiv, hmod, h1, if_true]
  all_goals
    simp only [List.cons_append, readHead, hinitial _ (by omega : (24 : Nat) < 32),
      hinitial _ (by omega : (25 : Nat) < 32), hinitial _ (by omega : (26 : Nat) < 32),
      hinitial _ (by omega : (27 : Nat) < 32)]
    simp only [Nat.reduceLT, if_false, if_true, Nat.reduceSub, Nat.reducePow]
    rw [readBE_putBE_append, Nat.mod_eq_of_lt (by omega)]

theorem readItem_encode {v : CborValue} (h : v.Fits) (rest : Bytes) :
    readItem (cborEncode v ++ rest) = some (v, rest) := by
  cases v with
  | text s =>
    have hlen : s.utf8ByteSize = s.toUTF8.data.toList.length := by
      rw [Array.length_toList]
      rfl
    rw [cborEncode, List.append_assoc, readItem, readHead_cborHead (by omega) h, hlen]
    show (splitAt? _ _).bind _ = _
    rw [splitAt?_append]
    have hutf8 : String.fromUTF8? s.toUTF8 = some s := dif_pos s.isValidUTF8
    show (String.fromUTF8? s.toUTF8).bind _ = _
    rw [hutf8]
    rfl
  | integer i =>
    unfold cborEncode
    by_cases hi : 0 ≤ i
    · rw [if_pos hi, readItem, readHead_cborHead (by omega) (by have := h.2; omega)]
      show some (CborValue.integer i.toNat, rest) = _
      rw [Int.toNat_of_nonneg hi]
    · rw [if_neg hi, readItem, readHead_cborHead (by omega) (by have := h.1; omega)]
      show some (CborValue.integer (-1 - (-1 - i).toNat), rest) = _
      rw [Int.toNat_of_nonneg (by omega), Int.sub_sub_self]
  | bytes b =>
    rw [cborEncode, List.append_assoc, readItem, readHead_cborHead (by omega) h]
    show (splitAt? _ _).bind _ = _
    rw [splitAt?_append]
    rfl
  | bool b => cases b <;> rfl
  | map entries => exact h.elim

theorem readEntries_encode {entries : List (CborValue × CborValue)}
    (h : ∀ e ∈ entries, e.1.Fits ∧ e.2.Fits) (rest : Bytes) :
    readEntries entries.length (cborEncodeEntries entries ++ rest) = some (entries, rest) := by
  induction entries with
  | nil => rfl
  | cons e entries ih =>
    obtain ⟨key, value⟩ := e
    obtain ⟨hkey, hvalue⟩ := h _ (List.mem_cons_self ..)
    rw [cborEncodeEntries, List.length_cons, readEntries, List.append_assoc, List.append_assoc,
      readItem_encode hkey]
    show (readItem _).bind _ = _
    rw [readItem_encode hvalue]
    show (readEntries _ _).bind _ = _
    rw [ih fun e he => h e (List.mem_cons_of_mem _ he)]
    rfl

/-- **The reader undoes the encoding.** -/
theorem readMap_encode {entries : List (CborValue × CborValue)} (hlen : entries.length < 2 ^ 64)
    (h : ∀ e ∈ entries, e.1.Fits ∧ e.2.Fits) :
    readMap (cborEncode (.map entries)) = some (.map entries) := by
  have hread := readEntries_encode h []
  rw [List.append_nil] at hread
  rw [cborEncode, readMap, readHead_cborHead (by omega) hlen]
  show (readEntries _ _).bind _ = _
  rw [hread]
  rfl

/-! ## What is assumed of the crates -/

/-- A value that is not a map. -/
def CborValue.Scalar : CborValue → Prop
  | .map _ => False
  | _ => True

/-- The value of a map with text keys. -/
def textMap (entries : List (String × CborValue)) : CborValue :=
  .map (entries.map fun e => (.text e.1, e.2))

/-- The reader undoes a writer on maps of distinct texts to values that are not maps.
It may have an order of its own for the keys, as `serde_cbor` has. -/
def Undoes (write : CborValue → Option Bytes) (fromSlice : Bytes → Option CborValue) : Prop :=
  ∀ (entries : List (String × CborValue)) (bytes : Bytes), (entries.map Prod.fst).Nodup →
    (∀ e ∈ entries, e.2.Scalar) → write (textMap entries) = some bytes →
    ∃ entries', entries'.Perm entries ∧ fromSlice bytes = some (textMap entries')

/-- What is assumed of `ciborium` and `serde_cbor`: a reader undoes both writers, and
what they write is no longer than plain CBOR. -/
structure CborCrates (crates : Crates) (fromSlice : Bytes → Option CborValue) : Prop where
  toVec : Undoes crates.toVec fromSlice
  intoWriter : Undoes crates.intoWriter fromSlice
  toVec_length : ∀ v bytes, crates.toVec v = some bytes → bytes.length ≤ (cborEncode v).length
  intoWriter_length : ∀ v bytes, crates.intoWriter v = some bytes →
    bytes.length ≤ (cborEncode v).length

/-- Write a flat map, if all in it fits. -/
def writeFlat : CborValue → Option Bytes
  | .map entries =>
    if entries.length < 2 ^ 64 ∧ ∀ e ∈ entries, e.1.Fits ∧ e.2.Fits then
      some (cborEncode (.map entries))
    else none
  | _ => none

/-- The crates as they are, on flat maps. -/
def Crates.flat : Crates where
  intoWriter := writeFlat
  toVec := writeFlat
  crc32 := crc32Ieee

theorem writeFlat_eq_some {v : CborValue} {bytes : Bytes} (h : writeFlat v = some bytes) :
    bytes = cborEncode v ∧ readMap bytes = some v := by
  unfold writeFlat at h
  split at h
  next entries =>
    split at h
    next hfits =>
      obtain rfl := Option.some.inj h
      exact ⟨rfl, readMap_encode hfits.1 hfits.2⟩
    next => exact absurd h (by simp)
  next => exact absurd h (by simp)

theorem flat_cborCrates : CborCrates .flat readMap where
  toVec entries _ _ _ h := ⟨entries, List.Perm.refl _, (writeFlat_eq_some (by exact h)).2⟩
  intoWriter entries _ _ _ h := ⟨entries, List.Perm.refl _, (writeFlat_eq_some (by exact h)).2⟩
  toVec_length _ _ h := Nat.le_of_eq (congrArg List.length (writeFlat_eq_some h).1)
  intoWriter_length _ _ h := Nat.le_of_eq (congrArg List.length (writeFlat_eq_some h).1)

/-! ## Sizes -/

/-- The bytes of a head, by its argument. -/
def headSize (n : Nat) : Nat :=
  if n < 24 then 1
  else if n < 2 ^ 8 then 2
  else if n < 2 ^ 16 then 3
  else if n < 2 ^ 32 then 5
  else 9

/-- The bytes of a text or a byte string. -/
def stringSize (n : Nat) : Nat := headSize n + n

theorem cborHead_length (major n : Nat) : (cborHead major n).length = headSize n := by
  unfold cborHead headSize
  dsimp only
  split_ifs <;> simp only [List.length_cons, List.length_nil, putBE_length]

theorem cborHead_length_le (major n : Nat) : (cborHead major n).length ≤ 9 := by
  rw [cborHead_length]
  unfold headSize
  split_ifs <;> omega

theorem cborEncode_text_length (s : String) :
    (cborEncode (.text s)).length = stringSize s.utf8ByteSize := by
  have hlen : s.toUTF8.data.toList.length = s.utf8ByteSize := by
    rw [Array.length_toList]
    rfl
  rw [cborEncode, List.length_append, hlen, cborHead_length]
  rfl

theorem cborEncode_bytes_length (b : Bytes) :
    (cborEncode (.bytes b)).length = stringSize b.length := by
  rw [cborEncode, List.length_append, cborHead_length]
  rfl

/-- A map takes a head and the sizes of its keys and values. -/
theorem cborEncode_textMap_length (entries : List (String × CborValue)) :
    (cborEncode (textMap entries)).length
      = headSize entries.length + (entries.map fun e =>
          stringSize e.1.utf8ByteSize + (cborEncode e.2).length).sum := by
  have hentries : ∀ entries : List (String × CborValue),
      (cborEncodeEntries (entries.map fun e => (.text e.1, e.2))).length
        = (entries.map fun e =>
            stringSize e.1.utf8ByteSize + (cborEncode e.2).length).sum := by
    intro entries
    induction entries with
    | nil => rfl
    | cons e entries ih =>
      rw [List.map_cons, List.map_cons, List.sum_cons, cborEncodeEntries, List.length_append,
        List.length_append, cborEncode_text_length, ih]
  rw [textMap, cborEncode, List.length_append, cborHead_length, List.length_map, hentries]

theorem cborEncode_integer_length_le (i : Int) : (cborEncode (.integer i)).length ≤ 9 := by
  unfold cborEncode
  split <;> exact cborHead_length_le ..

theorem cborEncode_text_length_le (s : String) :
    (cborEncode (.text s)).length ≤ 9 + s.utf8ByteSize := by
  have hhead := cborHead_length_le 3 s.utf8ByteSize
  rw [cborHead_length] at hhead
  rw [cborEncode_text_length]
  exact Nat.add_le_add_right hhead _

theorem cborEncode_bytes_length_le (b : Bytes) : (cborEncode (.bytes b)).length ≤ 9 + b.length := by
  have hhead := cborHead_length_le 2 b.length
  rw [cborHead_length] at hhead
  rw [cborEncode_bytes_length]
  exact Nat.add_le_add_right hhead _

/-- A map of two texts. -/
theorem cborEncode_pair_length_le (k₁ k₂ : String) {v₁ v₂ : CborValue} {n₁ n₂ : Nat}
    (h₁ : (cborEncode v₁).length ≤ n₁) (h₂ : (cborEncode v₂).length ≤ n₂) :
    (cborEncode (textMap [(k₁, v₁), (k₂, v₂)])).length
      ≤ 27 + k₁.utf8ByteSize + k₂.utf8ByteSize + n₁ + n₂ := by
  have hhead := cborHead_length_le 5 (0 + 1 + 1)
  have hk₁ := cborEncode_text_length_le k₁
  have hk₂ := cborEncode_text_length_le k₂
  simp only [textMap, List.map_cons, List.map_nil, cborEncode, cborEncodeEntries,
    List.length_append, List.length_cons, List.length_nil] at hk₁ hk₂ ⊢
  omega

/-! ## Looking up a text -/

/-- The first value under a text key. -/
def findText (entries : List (CborValue × CborValue)) (key : String) : Option CborValue :=
  (entries.find? fun e => match e.1 with
    | .text s => s = key
    | _ => false).map Prod.snd

theorem findText_textMap (entries : BTreeMap String CborValue) (key : String) :
    findText (entries.map fun e => (.text e.1, e.2)) key = entries.get key := by
  unfold findText BTreeMap.get
  rw [List.find?_map, Option.map_map]
  rfl

end MeshCore.Wire
