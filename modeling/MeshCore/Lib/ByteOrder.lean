import MeshCore.Lib.Endian
import Mathlib.Data.List.Basic
import Mathlib.Data.String.Basic

/-!
# The order of byte strings

Byte strings are compared byte by byte. Three encodings keep the order of what they
encode, with whatever comes after: numbers of a fixed width (`putBE_lt`), characters
in UTF-8 (`utf8EncodeChar_lt`), and so texts (`toUTF8_lt_iff`).

The argument is the same in all: a number is written digit by digit, the highest
first (`digits_lt`).
-/

namespace MeshCore.Lib

theorem byte_lt {n m : Nat} (hm : m < 256) (h : n < m) : UInt8.ofNat n < UInt8.ofNat m := by
  rw [UInt8.lt_iff_toNat_lt, UInt8.toNat_ofNat', UInt8.toNat_ofNat']
  omega

/-- The first byte decides, or else the rest does. -/
theorem cons_lt_of_byte {n m : Nat} {xs ys : List UInt8} (hm : m < 256) (hle : n ≤ m)
    (h : n = m → xs < ys) : UInt8.ofNat n :: xs < UInt8.ofNat m :: ys := by
  rw [List.cons_lt_cons_iff]
  rcases Nat.lt_or_eq_of_le hle with hlt | rfl
  · exact Or.inl (byte_lt hm hlt)
  · exact Or.inr ⟨rfl, h rfl⟩

/-! ## Digits -/

/-- The `k` lowest digits of a number in base `b`, the highest of them first. -/
def digits (enc : Nat → UInt8) (b : Nat) : Nat → Nat → List UInt8
  | 0, _ => []
  | k + 1, n => enc (n / b ^ k % b) :: digits enc b k n

/-- **Digits keep the order** of numbers that agree above them. -/
theorem digits_lt {enc : Nat → UInt8} {b : Nat} (hb : 0 < b)
    (henc : ∀ i j, i < j → j < b → enc i < enc j) {n m : Nat} (h : n < m) (xs ys : List UInt8) :
    ∀ k, n / b ^ k = m / b ^ k → digits enc b k n ++ xs < digits enc b k m ++ ys
  | 0, hk => by
    rw [Nat.pow_zero, Nat.div_one, Nat.div_one] at hk
    exact absurd hk (Nat.ne_of_lt h)
  | k + 1, hk => by
    show enc _ :: (digits enc b k n ++ xs) < enc _ :: (digits enc b k m ++ ys)
    rw [List.cons_lt_cons_iff]
    rw [Nat.pow_succ, ← Nat.div_div_eq_div_mul, ← Nat.div_div_eq_div_mul] at hk
    rcases Nat.lt_or_eq_of_le (Nat.div_le_div_right (Nat.le_of_lt h) : n / b ^ k ≤ m / b ^ k)
      with hlt | heq
    · -- the numbers agree above this digit and differ from it on
      have hn := Nat.div_add_mod (n / b ^ k) b
      have hm := Nat.div_add_mod (m / b ^ k) b
      rw [hk] at hn
      exact Or.inl (henc _ _ (by omega) (Nat.mod_lt _ hb))
    · rw [heq]
      exact Or.inr ⟨rfl, digits_lt hb henc h xs ys k heq⟩

theorem putBE_eq_digits (k n : Nat) : putBE k n = digits UInt8.ofNat 256 k n := by
  induction k with
  | zero => rfl
  | succ k ih =>
    have hbyte : UInt8.ofNat (n / 256 ^ k) = UInt8.ofNat (n / 256 ^ k % 256) := by
      refine UInt8.toNat_inj.mp ?_
      rw [UInt8.toNat_ofNat', UInt8.toNat_ofNat']
      exact (Nat.mod_mod _ _).symm
    rw [putBE, digits, hbyte, ih]

/-- Numbers of one width are in the order of their big-endian bytes. -/
theorem putBE_lt {k n m : Nat} (hm : m < 256 ^ k) (h : n < m) (xs ys : List UInt8) :
    putBE k n ++ xs < putBE k m ++ ys := by
  rw [putBE_eq_digits, putBE_eq_digits]
  refine digits_lt (by decide) (fun i j hij hj => byte_lt hj hij) h xs ys k ?_
  rw [Nat.div_eq_of_lt hm, Nat.div_eq_of_lt (Nat.lt_trans h hm)]

/-! ## UTF-8 -/

/-- The `k` continuation bytes of a code point. -/
def continuation : Nat → Nat → List UInt8 := digits (fun d => UInt8.ofNat (d + 128)) 64

/-- A leading byte of some kind and `k` continuation bytes. -/
theorem sequence_lt {base n m : Nat} (k : Nat) (hm : m / 64 ^ k + base < 256) (h : n < m)
    (xs ys : List UInt8) :
    UInt8.ofNat (n / 64 ^ k + base) :: (continuation k n ++ xs)
      < UInt8.ofNat (m / 64 ^ k + base) :: (continuation k m ++ ys) := by
  have hle : n / 64 ^ k ≤ m / 64 ^ k := Nat.div_le_div_right (Nat.le_of_lt h)
  refine cons_lt_of_byte hm (Nat.add_le_add_right hle base) fun heq => ?_
  refine digits_lt (by decide) (fun i j hij hj => byte_lt (by omega) (by omega)) h xs ys k ?_
  omega

theorem char_lt (c : Char) : c.toNat < 0x110000 := by
  rcases c.valid with h | h
  · have hlow : c.toNat < 0xd800 := h
    omega
  · exact h.2

/-- The four kinds of sequences. -/
theorem utf8EncodeChar_eq (c : Char) :
    String.utf8EncodeChar c
      = if c.toNat ≤ 0x7f then [UInt8.ofNat c.toNat]
        else if c.toNat ≤ 0x7ff then UInt8.ofNat (c.toNat / 64 ^ 1 + 0xc0) :: continuation 1 c.toNat
        else if c.toNat ≤ 0xffff then
          UInt8.ofNat (c.toNat / 64 ^ 2 + 0xe0) :: continuation 2 c.toNat
        else UInt8.ofNat (c.toNat / 64 ^ 3 + 0xf0) :: continuation 3 c.toNat := by
  have hc : c.val.toNat < 0x110000 := char_lt c
  unfold String.utf8EncodeChar Char.toNat continuation
  generalize c.val.toNat = v at hc
  dsimp only [digits]
  split_ifs with h1 h2 h3
  · rfl
  · rw [Nat.mod_eq_of_lt (by omega : v / 64 < 32), Nat.pow_zero, Nat.div_one, Nat.pow_one]
  · rw [Nat.mod_eq_of_lt (by omega : v / 4096 < 16), Nat.pow_zero, Nat.div_one, Nat.pow_one]
    rfl
  · rw [Nat.mod_eq_of_lt (by omega : v / 262144 < 8), Nat.pow_zero, Nat.div_one, Nat.pow_one]
    rfl

/-- **The order of characters is that of their bytes.** -/
theorem utf8EncodeChar_lt {c d : Char} (h : c < d) (xs ys : List UInt8) :
    String.utf8EncodeChar c ++ xs < String.utf8EncodeChar d ++ ys := by
  have hlt : c.toNat < d.toNat := h
  have hd : d.toNat < 0x110000 := char_lt d
  rw [utf8EncodeChar_eq, utf8EncodeChar_eq]
  split_ifs with h1 h2 h3 h4 h5 h6 h7 h8 <;> simp only [List.cons_append, List.nil_append]
  all_goals first
    | omega
    -- characters of two kinds: the leading bytes decide
    | exact cons_lt_of_byte (by omega) (by omega) (by omega)
    | exact sequence_lt _ (by omega) hlt xs ys

/-- The bytes of a text. -/
theorem toUTF8_eq (s : String) :
    s.toUTF8.data.toList = s.toList.flatMap String.utf8EncodeChar := by
  rw [String.toUTF8_eq_toByteArray, ← String.utf8Encode_toList]
  exact List.toList_data_toByteArray

theorem flatMap_utf8_lt {l m : List Char} (h : l < m) :
    l.flatMap String.utf8EncodeChar < m.flatMap String.utf8EncodeChar := by
  induction h with
  | @nil d m =>
    have hpos : 0 < (String.utf8EncodeChar d).length := by
      rw [String.length_utf8EncodeChar]
      exact d.utf8Size_pos
    obtain ⟨b, bs, hb⟩ := List.exists_cons_of_length_pos hpos
    rw [List.flatMap_nil, List.flatMap_cons, hb]
    exact List.nil_lt_cons _ _
  | cons h ih =>
    rw [List.flatMap_cons, List.flatMap_cons]
    exact List.append_left_lt ih
  | rel h =>
    rw [List.flatMap_cons, List.flatMap_cons]
    exact utf8EncodeChar_lt h _ _

/-- **The order of texts is that of their bytes.** -/
theorem toUTF8_lt_iff (a b : String) :
    a.toUTF8.data.toList < b.toUTF8.data.toList ↔ a < b := by
  have hlt : ∀ {s t : String}, s < t → s.toUTF8.data.toList < t.toUTF8.data.toList := by
    intro s t h
    rw [toUTF8_eq, toUTF8_eq]
    exact flatMap_utf8_lt (String.lt_iff_toList_lt.mp h)
  refine ⟨fun h => ?_, hlt⟩
  rcases lt_trichotomy a b with hab | rfl | hba
  · exact hab
  · exact absurd h (List.lt_irrefl _)
  · exact absurd (hlt hba) (List.lt_asymm h)

end MeshCore.Lib
