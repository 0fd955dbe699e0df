import Mathlib.Data.BitVec

/-!
# Numbers that wrap

Versions counted in a word of `w + 1` bits start again at zero after the last one. Of two
such numbers the newer is told by the sign of their difference. On the whole circle that is
no order. Inside a window of half the circle it is the order of the distances from the
window's start (`isNewer_iff_offset_lt`), wherever the window lies, and so a number counted
up by less than half the circle is newer than the one it came from (`isNewer_add`).
-/

namespace MeshCore.Lib.Serial

variable {w : Nat}

/-- The difference of the two numbers, read as signed, is positive. -/
def IsNewer (s t : BitVec (w + 1)) : Prop := 0 < (s - t).toInt

instance (s t : BitVec (w + 1)) : Decidable (IsNewer s t) :=
  inferInstanceAs (Decidable (_ < _))

/-- The distance of a number from the start of a window. -/
def offset (base s : BitVec (w + 1)) : Nat := (s - base).toNat

theorem isNewer_iff {s t : BitVec (w + 1)} :
    IsNewer s t ↔ 0 < (s - t).toNat ∧ (s - t).toNat < 2 ^ w := by
  have hhalf : 2 ^ (w + 1) = 2 * 2 ^ w := by rw [Nat.pow_succ, Nat.mul_comm]
  have hlt := (s - t).isLt
  unfold IsNewer
  rw [BitVec.toInt_eq_toNat_cond]
  split <;> omega

theorem not_isNewer_self (s : BitVec (w + 1)) : ¬ IsNewer s s := by
  intro h
  have hpos := (isNewer_iff.mp h).1
  rw [BitVec.sub_self] at hpos
  exact absurd hpos (by simp)

theorem eq_of_offset_eq {base s t : BitVec (w + 1)} (h : offset base s = offset base t) :
    s = t :=
  sub_left_inj.mp (BitVec.eq_of_toNat_eq h)

/-- **Inside a window of half the circle newer means further from its start.** -/
theorem isNewer_iff_offset_lt {base s t : BitVec (w + 1)} (hs : offset base s < 2 ^ w)
    (ht : offset base t < 2 ^ w) : IsNewer s t ↔ offset base t < offset base s := by
  have hhalf : 2 ^ (w + 1) = 2 * 2 ^ w := by rw [Nat.pow_succ, Nat.mul_comm]
  have hsub : s - t = (s - base) - (t - base) := (sub_sub_sub_cancel_right s t base).symm
  unfold offset at *
  rw [isNewer_iff, hsub]
  rcases Nat.lt_or_ge (s - base).toNat (t - base).toNat with hlt | hge
  · -- the difference wraps, into the upper half
    rw [BitVec.toNat_sub_of_lt (by simpa [BitVec.lt_def] using hlt)]
    omega
  · rw [BitVec.toNat_sub_of_le (by simpa [BitVec.le_def] using hge)]
    omega

/-- In a window the comparison is transitive. -/
theorem IsNewer.trans {base s t u : BitVec (w + 1)} (hs : offset base s < 2 ^ w)
    (ht : offset base t < 2 ^ w) (hu : offset base u < 2 ^ w) (hst : IsNewer s t)
    (htu : IsNewer t u) : IsNewer s u := by
  rw [isNewer_iff_offset_lt hs ht] at hst
  rw [isNewer_iff_offset_lt ht hu] at htu
  exact (isNewer_iff_offset_lt hs hu).mpr (Nat.lt_trans htu hst)

/-- In a window one of two different numbers is newer. -/
theorem isNewer_or_isNewer {base s t : BitVec (w + 1)} (hs : offset base s < 2 ^ w)
    (ht : offset base t < 2 ^ w) (hne : s ≠ t) : IsNewer s t ∨ IsNewer t s := by
  rw [isNewer_iff_offset_lt hs ht, isNewer_iff_offset_lt ht hs]
  rcases Nat.lt_trichotomy (offset base s) (offset base t) with hlt | heq | hgt
  · exact Or.inr hlt
  · exact absurd (eq_of_offset_eq heq) hne
  · exact Or.inl hgt

/-- **Counting up by less than half the circle gives a newer number**, across the wrap. -/
theorem isNewer_add (s : BitVec (w + 1)) {k : Nat} (hpos : 0 < k) (hlt : k < 2 ^ w) :
    IsNewer (s + BitVec.ofNat (w + 1) k) s := by
  have hhalf : 2 ^ (w + 1) = 2 * 2 ^ w := by rw [Nat.pow_succ, Nat.mul_comm]
  rw [isNewer_iff, add_sub_cancel_left, BitVec.toNat_ofNat, Nat.mod_eq_of_lt (by omega)]
  exact ⟨hpos, hlt⟩

end MeshCore.Lib.Serial
