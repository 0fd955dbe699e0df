import MeshCore.Lib.Collections
import Mathlib.Data.List.Sort

/-!
# Numbered maps in the order of their numbers

`inOrder` lists the values of a map by ascending number. Maps with the same
lookups have the same list (`inOrder_congr`), and writing under the greatest
number, be it there already or not, changes the end of the list only
(`inOrder_insert_last`).
-/

namespace MeshCore.Lib.HashMap

variable {α : Type}

/-- The values of a map, by ascending number. -/
def inOrder (m : HashMap Nat α) : List α :=
  (m.keys.insertionSort (· ≤ ·)).filterMap fun num => m.lookup num

/-- The numbers of the map are at most this one. -/
def AtMost (m : HashMap Nat α) (num : Nat) : Prop := ∀ k, k ∈ m → k ≤ num

theorem sort_eq_of_perm {ks ks' : List Nat} (h : ks.Perm ks') :
    ks.insertionSort (· ≤ ·) = ks'.insertionSort (· ≤ ·) :=
  List.Perm.eq_of_pairwise' (List.pairwise_insertionSort _ ks) (List.pairwise_insertionSort _ ks')
    (((List.perm_insertionSort _ ks).trans h).trans (List.perm_insertionSort _ ks').symm)

theorem inOrder_congr {m m' : HashMap Nat α} (h : ∀ k, m.lookup k = m'.lookup k) :
    m.inOrder = m'.inOrder := by
  have hperm : m.keys.Perm m'.keys := by
    refine (List.perm_ext_iff_of_nodup m.nodupKeys m'.nodupKeys).mpr fun k => ?_
    show k ∈ m ↔ k ∈ m'
    rw [← AList.lookup_isSome, ← AList.lookup_isSome, h]
  unfold inOrder
  rw [sort_eq_of_perm hperm]
  exact List.filterMap_congr fun k _ => h k

/-- A number above all others comes last. -/
theorem sort_cons_of_forall_le {num : Nat} {ks : List Nat} (h : ∀ k ∈ ks, k ≤ num) :
    (num :: ks).insertionSort (· ≤ ·) = ks.insertionSort (· ≤ ·) ++ [num] := by
  refine List.Perm.eq_of_pairwise' (List.pairwise_insertionSort _ _) (r := (· ≤ ·)) ?_ ?_
  · refine List.pairwise_append.mpr
      ⟨List.pairwise_insertionSort _ ks, List.pairwise_singleton .., ?_⟩
    intro a ha b hb
    rw [List.mem_singleton.mp hb]
    exact h a ((List.mem_insertionSort _).mp ha)
  · refine (List.perm_insertionSort _ _).trans ?_
    exact ((List.perm_insertionSort (· ≤ ·) ks).symm.cons num).trans
      (List.perm_append_singleton num _).symm

/-- **Writing under the greatest number** changes the end of the list only. -/
theorem inOrder_insert_last {m : HashMap Nat α} {num : Nat} (h : m.AtMost num) (a : α) :
    inOrder (m.insert num a) = inOrder (m.erase num) ++ [a] := by
  have hle : ∀ k ∈ m.keys.erase num, k ≤ num := fun k hk =>
    h k (AList.mem_keys.mpr (List.mem_of_mem_erase hk))
  unfold inOrder
  rw [AList.keys_insert, AList.keys_erase, sort_cons_of_forall_le hle, List.filterMap_append]
  congr 1
  · refine List.filterMap_congr fun k hk => ?_
    have hne : k ≠ num := by
      have hmem : k ∈ m.erase num := by
        rw [AList.mem_keys, AList.keys_erase]
        exact (List.mem_insertionSort _).mp hk
      exact (AList.mem_erase.mp hmem).1
    rw [AList.lookup_insert_ne hne, AList.lookup_erase_ne hne]
  · rw [List.filterMap_cons, AList.lookup_insert]
    rfl

/-- The value with the greatest number is the last one. -/
theorem inOrder_of_last {m : HashMap Nat α} {num : Nat} {a : α} (h : m.AtMost num)
    (ha : m.lookup num = some a) : m.inOrder = inOrder (m.erase num) ++ [a] := by
  rw [← inOrder_insert_last h a]
  refine inOrder_congr fun k => ?_
  rw [lookup_insert_ite]
  split
  next hk => rw [hk, ha]
  next => rfl

theorem erase_of_notMem {m : HashMap Nat α} {num : Nat} (h : num ∉ m) :
    inOrder (m.erase num) = m.inOrder := by
  refine inOrder_congr fun k => ?_
  by_cases hk : k = num
  · rw [hk, AList.lookup_erase, AList.lookup_eq_none.mpr h]
  · rw [AList.lookup_erase_ne hk]

theorem atMost_insert {m : HashMap Nat α} {num : Nat} (h : m.AtMost num) (a : α) :
    AtMost (m.insert num a) num := by
  intro k hk
  rcases (AList.mem_insert m).mp hk with rfl | hk
  · exact Nat.le_refl _
  · exact h k hk

/-- `max` of the numbers finds the greatest one. -/
theorem max?_keys_eq_some {m : HashMap Nat α} {num : Nat} :
    m.keys.max? = some num ↔ num ∈ m ∧ m.AtMost num := by
  rw [List.max?_eq_some_iff, AList.mem_keys]
  exact Iff.rfl

theorem max?_keys_eq_none {m : HashMap Nat α} : m.keys.max? = none ↔ ∀ k, k ∉ m := by
  rw [List.max?_eq_none_iff, List.eq_nil_iff_forall_not_mem]
  exact Iff.rfl

theorem inOrder_of_empty {m : HashMap Nat α} (h : ∀ k, k ∉ m) : m.inOrder = [] := by
  have hkeys : m.keys = [] := List.eq_nil_iff_forall_not_mem.mpr h
  unfold inOrder
  rw [hkeys]
  rfl

/-- Looking up each number in turn, with a default that is never used. -/
theorem map_getD_eq_inOrder (m : HashMap Nat α) (default : α) :
    ((m.keys.insertionSort (· ≤ ·)).map fun num => (m.lookup num).getD default) = m.inOrder := by
  have hmem : ∀ k ∈ m.keys.insertionSort (· ≤ ·), k ∈ m := fun k hk =>
    AList.mem_keys.mpr ((List.mem_insertionSort _).mp hk)
  unfold inOrder
  generalize m.keys.insertionSort (· ≤ ·) = ks at hmem
  induction ks with
  | nil => rfl
  | cons k ks ih =>
    obtain ⟨a, ha⟩ := Option.isSome_iff_exists.mp
      (AList.lookup_isSome.mpr (hmem k (List.mem_cons_self ..)))
    rw [List.map_cons, List.filterMap_cons, ha, ih fun k hk => hmem k (List.mem_cons_of_mem _ hk)]
    rfl

end MeshCore.Lib.HashMap
