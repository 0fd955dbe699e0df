import Mathlib.Data.Finset.Card
import Mathlib.Data.List.Sort
import Mathlib.Logic.Equiv.Basic

/-!
# What a sort leaves open

A sort by a key that several elements share leaves their order as it was. So what is at a
position of the sorted list of a set may depend on the order in which the set was listed.
It does not exactly when the element there has a key of its own
(`position_determined_iff`), and then the position is the number of elements below it
(`card_below`).

The order is a test `le`, transitive and total, as `List.mergeSort` takes it.
-/

namespace MeshCore.Lib

variable {α : Type} [DecidableEq α] {le : α → α → Bool}

/-- A list of the elements of a set, each once, in any order. -/
structure Lists (l : List α) (s : Finset α) : Prop where
  nodup : l.Nodup
  toFinset : l.toFinset = s

/-- The elements of a set that come before an element in every sorted list. -/
def below (le : α → α → Bool) (s : Finset α) (a : α) : Finset α := s.filter fun b => le a b = false

/-- No other element of the set has the key of this one. -/
def Alone (le : α → α → Bool) (s : Finset α) (a : α) : Prop :=
  ∀ b ∈ s, le a b = true → le b a = true → b = a

theorem Lists.mem {l : List α} {s : Finset α} (h : Lists l s) {a : α} : a ∈ l ↔ a ∈ s := by
  rw [← h.toFinset, List.mem_toFinset]

theorem Lists.length {l : List α} {s : Finset α} (h : Lists l s) : l.length = s.card := by
  rw [← h.toFinset, List.toFinset_card_of_nodup h.nodup]

theorem Lists.perm {l l' : List α} {s : Finset α} (h : Lists l s) (hperm : l'.Perm l) :
    Lists l' s :=
  ⟨hperm.nodup_iff.mpr h.nodup, (List.toFinset_eq_of_perm _ _ hperm).trans h.toFinset⟩

theorem lists_toList (s : Finset α) : Lists s.toList s := ⟨s.nodup_toList, s.toList_toFinset⟩

omit [DecidableEq α] in
theorem le_self (htotal : ∀ a b, (le a b || le b a) = true) (a : α) : le a a = true := by
  have h := htotal a a
  rwa [Bool.or_self] at h

/-- In a sorted list, an element with a key of its own is behind those below it. -/
theorem card_below (htotal : ∀ a b, (le a b || le b a) = true) {l : List α} {s : Finset α}
    (h : Lists l s) (hsorted : l.Pairwise fun a b => le a b = true) {a : α} {i : Nat}
    (hi : l[i]? = some a) (halone : Alone le s a) : (below le s a).card = i := by
  obtain ⟨hlt, ha⟩ := List.getElem?_eq_some_iff.mp hi
  have hbefore : ∀ b ∈ l.take i, le a b = false := by
    intro b hb
    obtain ⟨j, hj, rfl⟩ := List.mem_take_iff_getElem.mp hb
    have hji : j < i := by omega
    refine Bool.eq_false_iff.mpr fun hback => ?_
    have hle := List.pairwise_iff_getElem.mp hsorted j i (by omega) hlt hji
    have hsame := halone l[j] (h.mem.mp (List.getElem_mem _)) hback (ha ▸ hle)
    exact absurd (h.nodup.getElem_inj_iff.mp (hsame.trans ha.symm)) (Nat.ne_of_lt hji)
  have hafter : ∀ b ∈ l.drop i, le a b = true := by
    intro b hb
    obtain ⟨j, hj, rfl⟩ := List.mem_drop_iff_getElem.mp hb
    rw [← ha]
    rcases Nat.eq_zero_or_pos j with rfl | hpos
    · exact le_self htotal _
    · exact List.pairwise_iff_getElem.mp hsorted i (i + j) hlt (by omega) (by omega)
  have hsplit : l.filter (fun b => le a b = false) = l.take i := by
    conv => lhs; rw [← List.take_append_drop i l]
    rw [List.filter_append, List.filter_eq_self.mpr fun b hb => decide_eq_true (hbefore b hb),
      List.filter_eq_nil_iff.mpr fun b hb => by simp [hafter b hb], List.append_nil]
  have hset : below le s a = (l.filter fun b => le a b = false).toFinset := by
    ext b
    simp [below, h.mem]
  rw [hset, List.toFinset_card_of_nodup (h.nodup.filter _), hsplit, List.length_take,
    Nat.min_eq_left (Nat.le_of_lt hlt)]

/-- Two elements of one key change places: a list that was sorted is sorted. -/
theorem pairwise_swap (htrans : ∀ a b c, le a b = true → le b c = true → le a c = true)
    (htotal : ∀ a b, (le a b || le b a) = true) {l : List α} {a b : α} (hab : le a b = true)
    (hba : le b a = true) (h : l.Pairwise fun x y => le x y = true) :
    (l.map (Equiv.swap a b)).Pairwise fun x y => le x y = true := by
  have hkey : ∀ x, le (Equiv.swap a b x) x = true ∧ le x (Equiv.swap a b x) = true := by
    intro x
    by_cases hxa : x = a
    · rw [hxa, Equiv.swap_apply_left]
      exact ⟨hba, hab⟩
    · by_cases hxb : x = b
      · rw [hxb, Equiv.swap_apply_right]
        exact ⟨hab, hba⟩
      · rw [Equiv.swap_apply_of_ne_of_ne hxa hxb]
        exact ⟨le_self htotal x, le_self htotal x⟩
  refine List.pairwise_map.mpr (h.imp fun {x y} hxy => ?_)
  exact htrans _ _ _ (hkey x).1 (htrans _ _ _ hxy (hkey y).2)

theorem Lists.swap {l : List α} {s : Finset α} (h : Lists l s) {a b : α} (ha : a ∈ s) (hb : b ∈ s) :
    Lists (l.map (Equiv.swap a b)) s := by
  refine ⟨h.nodup.map (Equiv.swap a b).injective, ?_⟩
  ext x
  rw [List.mem_toFinset, List.mem_map]
  have hin : ∀ x, x ∈ s → Equiv.swap a b x ∈ s := by
    intro x hx
    by_cases hxa : x = a
    · rwa [hxa, Equiv.swap_apply_left]
    · by_cases hxb : x = b
      · rwa [hxb, Equiv.swap_apply_right]
      · rwa [Equiv.swap_apply_of_ne_of_ne hxa hxb]
  constructor
  · intro hx
    obtain ⟨y, hy, rfl⟩ := hx
    exact hin y (h.mem.mp hy)
  · intro hx
    exact ⟨Equiv.swap a b x, h.mem.mpr (hin x hx), Equiv.swap_apply_self a b x⟩

theorem Lists.mergeSort {l : List α} {s : Finset α} (h : Lists l s) : Lists (l.mergeSort le) s :=
  h.perm (List.mergeSort_perm l le)

/-- **What is at a position that does not depend on the listing** has a key of its own: else
it changes places with the other of its key. -/
theorem alone_of_determined (htrans : ∀ a b c, le a b = true → le b c = true → le a c = true)
    (htotal : ∀ a b, (le a b || le b a) = true) {s : Finset α} {l : List α} {a : α} {i : Nat}
    (h : ∀ l l', Lists l s → Lists l' s → (l.mergeSort le)[i]? = (l'.mergeSort le)[i]?)
    (hl : Lists l s) (hsorted : l.Pairwise fun a b => le a b = true) (hget : l[i]? = some a) :
    Alone le s a := by
  intro b hb hab hba
  have ha : a ∈ s := hl.mem.mp (List.mem_of_getElem? hget)
  have hswap := h l (l.map (Equiv.swap a b)) hl (hl.swap ha hb)
  -- both lists are sorted
  rw [List.mergeSort_of_pairwise hsorted, List.mergeSort_of_pairwise
    (pairwise_swap htrans htotal hab hba hsorted), List.getElem?_map, hget] at hswap
  rw [← Equiv.swap_apply_left a b]
  exact (Option.some.inj hswap).symm

/-- **When a position of the sorted list does not depend on the listing.** -/
theorem position_determined_iff (htrans : ∀ a b c, le a b = true → le b c = true → le a c = true)
    (htotal : ∀ a b, (le a b || le b a) = true) {s : Finset α} {i : Nat} (hi : i < s.card) :
    (∀ l l', Lists l s → Lists l' s → (l.mergeSort le)[i]? = (l'.mergeSort le)[i]?)
      ↔ ∃ a ∈ s, (below le s a).card = i ∧ Alone le s a := by
  have hsorted : ∀ l : List α, (l.mergeSort le).Pairwise fun a b => le a b = true :=
    fun l => List.pairwise_mergeSort htrans htotal l
  constructor
  · intro h
    have hl : Lists (s.toList.mergeSort le) s := (lists_toList s).mergeSort
    obtain ⟨a, hget⟩ : ∃ a, (s.toList.mergeSort le)[i]? = some a :=
      ⟨_, List.getElem?_eq_getElem (by rw [hl.length]; exact hi)⟩
    have halone := alone_of_determined htrans htotal h hl (hsorted _) hget
    exact ⟨a, hl.mem.mp (List.mem_of_getElem? hget),
      card_below htotal hl (hsorted _) hget halone, halone⟩
  · intro h
    obtain ⟨a, ha, hcard, halone⟩ := h
    have hat : ∀ {l}, Lists l s → (l.mergeSort le)[i]? = some a := by
      intro l hl
      obtain ⟨j, hj⟩ := List.mem_iff_getElem?.mp (hl.mergeSort.mem.mpr ha)
      rw [← hcard, card_below htotal hl.mergeSort (hsorted l) hj halone]
      exact hj
    intro l l' hl hl'
    exact (hat hl).trans (hat hl').symm

end MeshCore.Lib
