import Mathlib.Data.List.Basic

/-!
# Spending a budget from the front of a queue

A sender with a budget takes items from the front of a queue as long as the
budget covers the next one, and stops at the first that it does not cover.
`covered` is what it takes. It is a prefix of the queue (`covered_isPrefix`), costs
no more than the budget (`total_covered_le`), and an item is in it exactly if the
budget covers it together with everything before it (`lt_length_covered_iff`).
-/

namespace MeshCore.Lib

variable {α : Type} (cost : α → Nat)

/-- What a list of items costs. -/
def total : List α → Nat
  | [] => 0
  | x :: xs => cost x + total xs

/-- The items taken from the front of a queue. -/
def covered : Int → List α → List α
  | _, [] => []
  | budget, x :: xs => if budget ≥ cost x then x :: covered (budget - cost x) xs else []

@[simp] theorem total_nil : total cost [] = 0 := rfl

@[simp] theorem total_cons (x : α) (xs : List α) : total cost (x :: xs) = cost x + total cost xs :=
  rfl

@[simp] theorem total_append (xs ys : List α) :
    total cost (xs ++ ys) = total cost xs + total cost ys := by
  induction xs with
  | nil => exact (Nat.zero_add _).symm
  | cons x xs ih =>
    rw [List.cons_append, total_cons, total_cons, ih]
    exact (Nat.add_assoc ..).symm

theorem total_map {β : Type} (f : β → α) (ys : List β) :
    total cost (ys.map f) = total (fun y => cost (f y)) ys := by
  induction ys with
  | nil => rfl
  | cons y ys ih => rw [List.map_cons, total_cons, total_cons, ih]

theorem total_le_of_le {cost' : α → Nat} {xs : List α} (h : ∀ x ∈ xs, cost x ≤ cost' x) :
    total cost xs ≤ total cost' xs := by
  induction xs with
  | nil => exact Nat.le_refl _
  | cons x xs ih =>
    rw [total_cons, total_cons]
    exact Nat.add_le_add (h x (List.mem_cons_self ..))
      (ih fun y hy => h y (List.mem_cons_of_mem _ hy))

theorem covered_isPrefix (budget : Int) (xs : List α) : covered cost budget xs <+: xs := by
  induction xs generalizing budget with
  | nil => exact List.prefix_refl _
  | cons x xs ih =>
    unfold covered
    split
    · exact (List.prefix_cons_inj x).mpr (ih _)
    · exact List.nil_prefix

/-- Taking and leaving account for the whole queue. -/
theorem covered_append_drop (budget : Int) (xs : List α) :
    covered cost budget xs ++ xs.drop (covered cost budget xs).length = xs := by
  conv => lhs; arg 1; rw [List.prefix_iff_eq_take.mp (covered_isPrefix cost budget xs)]
  exact List.take_append_drop ..

theorem total_covered_le {budget : Int} (h : 0 ≤ budget) (xs : List α) :
    (total cost (covered cost budget xs) : Int) ≤ budget := by
  induction xs generalizing budget with
  | nil => exact h
  | cons x xs ih =>
    unfold covered
    split
    next hge =>
      have hrest : (total cost (covered cost (budget - cost x) xs) : Int) ≤ budget - cost x :=
        ih (by omega)
      rw [total_cons]
      omega
    next => exact h

theorem covered_cons_eq_nil_iff {budget : Int} {x : α} {xs : List α} :
    covered cost budget (x :: xs) = [] ↔ budget < cost x := by
  unfold covered
  split
  next hge => exact ⟨fun h => absurd h (List.cons_ne_nil _ _), fun h => by omega⟩
  next hlt => exact ⟨fun _ => by omega, fun _ => rfl⟩

/-- **An item is taken exactly if the budget covers the queue up to it.** -/
theorem lt_length_covered_iff {budget : Int} {xs : List α} {i : Nat} :
    i < (covered cost budget xs).length ↔
      i < xs.length ∧ (total cost (xs.take (i + 1)) : Int) ≤ budget := by
  induction xs generalizing budget i with
  | nil => exact ⟨fun h => absurd h (Nat.not_lt_zero i), fun h => absurd h.1 (Nat.not_lt_zero i)⟩
  | cons x xs ih =>
    unfold covered
    split
    next hge =>
      cases i with
      | zero =>
        refine ⟨fun _ => ⟨Nat.succ_pos _, ?_⟩, fun _ => Nat.succ_pos _⟩
        simpa using hge
      | succ i =>
        rw [List.length_cons, Nat.succ_lt_succ_iff, ih, List.length_cons, Nat.succ_lt_succ_iff,
          List.take_succ_cons, total_cons]
        refine and_congr_right fun _ => ?_
        omega
    next hlt =>
      refine ⟨fun h => absurd h (Nat.not_lt_zero i), fun ⟨_, h⟩ => ?_⟩
      rw [List.take_succ_cons, total_cons] at h
      omega

/-- A budget that is not overdrawn covers the prefixes of the queue that cost no more, and
no others. -/
theorem le_length_covered_iff {budget : Int} (h : 0 ≤ budget) {xs : List α} {k : Nat} :
    k ≤ (covered cost budget xs).length ↔
      k ≤ xs.length ∧ (total cost (xs.take k) : Int) ≤ budget := by
  cases k with
  | zero =>
    rw [List.take_zero, total_nil]
    exact ⟨fun _ => ⟨Nat.zero_le _, h⟩, fun _ => Nat.zero_le _⟩
  | succ i => exact lt_length_covered_iff cost

/-- A budget that covers everything. -/
theorem covered_eq_self {budget : Int} {xs : List α} (h : (total cost xs : Int) ≤ budget) :
    covered cost budget xs = xs := by
  have hnonneg : 0 ≤ budget := by omega
  have hlength : xs.length ≤ (covered cost budget xs).length :=
    (le_length_covered_iff cost hnonneg).mpr ⟨Nat.le_refl _, by rwa [List.take_length]⟩
  exact (covered_isPrefix cost budget xs).eq_of_length_le hlength

/-- What is taken, as positions in the queue. -/
theorem mem_covered_iff {budget : Int} {xs : List α} {x : α} :
    x ∈ covered cost budget xs ↔
      ∃ i, xs[i]? = some x ∧ (total cost (xs.take (i + 1)) : Int) ≤ budget := by
  have hpre := List.prefix_iff_eq_take.mp (covered_isPrefix cost budget xs)
  constructor
  · intro hx
    obtain ⟨i, hi, heq⟩ := List.mem_iff_getElem.mp hx
    obtain ⟨hlen, hle⟩ := (lt_length_covered_iff cost).mp hi
    refine ⟨i, ?_, hle⟩
    rw [List.getElem?_eq_getElem hlen, ← heq]
    exact congrArg some ((covered_isPrefix cost budget xs).getElem hi).symm
  · rintro ⟨i, hget, hle⟩
    obtain ⟨hlen, heq⟩ := List.getElem?_eq_some_iff.mp hget
    have hi := (lt_length_covered_iff cost).mpr ⟨hlen, hle⟩
    rw [← heq, ← (covered_isPrefix cost budget xs).getElem hi]
    exact List.getElem_mem hi

/-- Removing positions 0 to `k - 1`, the last one first. -/
theorem foldl_eraseIdx_range' (k : Nat) (xs : List α) :
    (List.range' 0 k).reverse.foldl (fun ys i => ys.eraseIdx i) xs = xs.drop k := by
  induction k generalizing xs with
  | zero => rfl
  | succ k ih =>
    rw [List.range'_1_concat, List.reverse_append, List.reverse_singleton, List.singleton_append,
      List.foldl_cons, ih, Nat.zero_add]
    rw [List.eraseIdx_eq_take_drop_succ, List.drop_append, List.drop_take_self, List.nil_append,
      List.length_take, List.drop_drop]
    rcases Nat.le_total k xs.length with hle | hge
    · rw [Nat.min_eq_left hle, Nat.sub_self, Nat.add_zero]
    · rw [List.drop_eq_nil_of_le (by omega), List.drop_eq_nil_of_le (by omega)]

end MeshCore.Lib
