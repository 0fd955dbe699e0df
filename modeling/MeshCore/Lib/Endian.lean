import Mathlib.Tactic.Ring
import Mathlib.Data.List.Basic

/-!
# Fixed-width integers in byte buffers

The big-endian and little-endian forms of an unsigned integer, as lists of
bytes, and the cursor reads that consume them. Nothing here knows about a
particular format: a width is a number of bytes and a value is a `Nat`, so one
pair of inverse lemmas serves every field of every header.

* `putBE k n` writes the low `k` bytes of `n`; `getBE` reads a whole byte
  string back. `getBE_putBE` and `putBE_getBE` say that they are inverse up to
  the reduction modulo `256 ^ k`.
* `readBE k` is the cursor form: it takes `k` bytes off the front of a buffer,
  and has no result when the buffer is shorter. `readBE_eq_some` turns a
  successful read into an equation about the buffer, which is how a decoder is
  run backwards.
* `splitAt?` is the same for an uninterpreted run of bytes.
-/

namespace MeshCore.Lib

/-- The low `k` bytes of `n`, most significant byte first. -/
def putBE : Nat → Nat → List UInt8
  | 0, _ => []
  | k + 1, n => UInt8.ofNat (n / 256 ^ k) :: putBE k n

/-- The number a byte string spells, most significant byte first. -/
def getBE : List UInt8 → Nat
  | [] => 0
  | b :: bs => b.toNat * 256 ^ bs.length + getBE bs

@[simp] theorem putBE_length (k n : Nat) : (putBE k n).length = k := by
  induction k with
  | zero => rfl
  | succ k ih => rw [putBE, List.length_cons, ih]

theorem getBE_lt (bs : List UInt8) : getBE bs < 256 ^ bs.length := by
  induction bs with
  | nil => exact Nat.one_pos
  | cons b bs ih =>
    have hb : b.toNat ≤ 255 := Nat.le_of_lt_succ b.toNat_lt
    have hmul : b.toNat * 256 ^ bs.length ≤ 255 * 256 ^ bs.length :=
      Nat.mul_le_mul_right _ hb
    rw [getBE, List.length_cons, Nat.pow_succ]
    omega

/-- Reading back what was written loses exactly the bytes above the width. -/
theorem getBE_putBE (k n : Nat) : getBE (putBE k n) = n % 256 ^ k := by
  induction k with
  | zero => rw [putBE, getBE, Nat.pow_zero, Nat.mod_one]
  | succ k ih =>
    rw [putBE, getBE, putBE_length, ih, UInt8.toNat_ofNat']
    show n / 256 ^ k % 256 * 256 ^ k + n % 256 ^ k = n % (256 ^ k * 256)
    rw [Nat.mod_mul, Nat.mul_comm, Nat.add_comm]

/-- The bytes written depend on the value only modulo the width. -/
theorem putBE_congr : ∀ (k : Nat) {n m : Nat}, n % 256 ^ k = m % 256 ^ k →
    putBE k n = putBE k m
  | 0, _, _, _ => rfl
  | k + 1, n, m, h => by
    rw [Nat.pow_succ, Nat.mod_mul, Nat.mod_mul] at h
    have hpos : 0 < 256 ^ k := Nat.pow_pos (by omega)
    have hn : n % 256 ^ k < 256 ^ k := Nat.mod_lt _ hpos
    have hm : m % 256 ^ k < 256 ^ k := Nat.mod_lt _ hpos
    have hlow : n % 256 ^ k = m % 256 ^ k := by
      have := congrArg (· % 256 ^ k) h
      simpa [Nat.add_mul_mod_self_left, Nat.mod_mod] using this
    have hhigh : n / 256 ^ k % 256 = m / 256 ^ k % 256 := by
      rw [hlow] at h
      exact Nat.eq_of_mul_eq_mul_left hpos (Nat.add_left_cancel h)
    have hbyte : UInt8.ofNat (n / 256 ^ k) = UInt8.ofNat (m / 256 ^ k) := by
      apply UInt8.toNat_inj.mp
      rw [UInt8.toNat_ofNat', UInt8.toNat_ofNat']
      exact hhigh
    rw [putBE, putBE, hbyte, putBE_congr k hlow]

/-- Writing back what was read restores the bytes. -/
theorem putBE_getBE (bs : List UInt8) : putBE bs.length (getBE bs) = bs := by
  induction bs with
  | nil => rfl
  | cons b bs ih =>
    have hpos : 0 < 256 ^ bs.length := Nat.pow_pos (by omega)
    have hlt := getBE_lt bs
    have hdiv : (b.toNat * 256 ^ bs.length + getBE bs) / 256 ^ bs.length = b.toNat := by
      rw [Nat.mul_comm, Nat.mul_add_div hpos, Nat.div_eq_of_lt hlt, Nat.add_zero]
    have hmod : (b.toNat * 256 ^ bs.length + getBE bs) % 256 ^ bs.length
        = getBE bs % 256 ^ bs.length := by
      rw [Nat.mul_comm, Nat.mul_add_mod]
    rw [List.length_cons, getBE, putBE, hdiv, putBE_congr _ hmod, ih, UInt8.ofNat_toNat]

/-! ## Cursor reads -/

/-- Take `k` bytes off the front of the buffer as a big-endian number; no
result when the buffer is shorter than that. -/
def readBE (k : Nat) (buf : List UInt8) : Option (Nat × List UInt8) :=
  if k ≤ buf.length then some (getBE (buf.take k), buf.drop k) else none

/-- Cut the buffer after `k` bytes; no result when it is shorter than that. -/
def splitAt? (k : Nat) (buf : List UInt8) : Option (List UInt8 × List UInt8) :=
  if k ≤ buf.length then some (buf.take k, buf.drop k) else none

@[simp] theorem readBE_putBE_append (k n : Nat) (rest : List UInt8) :
    readBE k (putBE k n ++ rest) = some (n % 256 ^ k, rest) := by
  have hlen : k ≤ (putBE k n ++ rest).length := by
    rw [List.length_append, putBE_length]
    exact Nat.le_add_right _ _
  rw [readBE, if_pos hlen, List.take_left' (putBE_length k n), List.drop_left' (putBE_length k n),
    getBE_putBE]

/-- A successful read determines the front of the buffer. -/
theorem readBE_eq_some {k n : Nat} {buf rest : List UInt8} :
    readBE k buf = some (n, rest) ↔ buf = putBE k n ++ rest ∧ n < 256 ^ k := by
  constructor
  · intro h
    unfold readBE at h
    split at h
    next hk =>
      obtain ⟨hn, hrest⟩ := Prod.mk.inj (Option.some.inj h)
      have hlen : (buf.take k).length = k := List.length_take_of_le hk
      have hback : putBE k n = buf.take k := by
        have := putBE_getBE (buf.take k)
        rw [hlen, hn] at this
        exact this
      refine ⟨?_, ?_⟩
      · rw [hback, ← hrest, List.take_append_drop]
      · have := getBE_lt (buf.take k)
        rw [hlen, hn] at this
        exact this
    next => exact absurd h (by simp)
  · rintro ⟨rfl, hn⟩
    rw [readBE_putBE_append, Nat.mod_eq_of_lt hn]

@[simp] theorem splitAt?_append (front rest : List UInt8) :
    splitAt? front.length (front ++ rest) = some (front, rest) := by
  rw [splitAt?, if_pos (by rw [List.length_append]; exact Nat.le_add_right _ _),
    List.take_left, List.drop_left]

/-- A successful cut is a decomposition of the buffer. -/
theorem splitAt?_eq_some {k : Nat} {buf front rest : List UInt8} :
    splitAt? k buf = some (front, rest) ↔ buf = front ++ rest ∧ front.length = k := by
  constructor
  · intro h
    unfold splitAt? at h
    split at h
    next hk =>
      obtain ⟨hf, hr⟩ := Prod.mk.inj (Option.some.inj h)
      subst hf hr
      exact ⟨(List.take_append_drop k buf).symm, List.length_take_of_le hk⟩
    next => exact absurd h (by simp)
  · rintro ⟨rfl, rfl⟩
    exact splitAt?_append front rest

/-! ## Little-endian form -/

/-- The low `k` bytes of `n`, least significant byte first. -/
def putLE (k n : Nat) : List UInt8 := (putBE k n).reverse

/-- The number a byte string spells, least significant byte first. -/
def getLE (bs : List UInt8) : Nat := getBE bs.reverse

@[simp] theorem putLE_length (k n : Nat) : (putLE k n).length = k := by
  rw [putLE, List.length_reverse, putBE_length]

theorem getLE_putLE (k n : Nat) : getLE (putLE k n) = n % 256 ^ k := by
  rw [getLE, putLE, List.reverse_reverse, getBE_putBE]

theorem getLE_lt (bs : List UInt8) : getLE bs < 256 ^ bs.length := by
  rw [getLE, ← List.length_reverse]
  exact getBE_lt bs.reverse

theorem putLE_getLE (bs : List UInt8) : putLE bs.length (getLE bs) = bs := by
  rw [putLE, getLE, ← List.length_reverse, putBE_getBE, List.reverse_reverse]

end MeshCore.Lib
