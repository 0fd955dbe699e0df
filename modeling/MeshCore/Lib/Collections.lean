import Mathlib.Data.List.AList
import Mathlib.Data.Multiset.Basic

/-!
# Hash maps and priority queues

`HashMap κ α` is a map with unspecified iteration order: Mathlib's association
list with distinct keys, whose entry list *is* the order in which an iteration
visits it. A statement about every `HashMap` is therefore a statement about
every iteration order. Facts about contents go through `lookup`, which does not
see the order.

`BTreeMap` is a list in key order, which is the iteration order.

`popMin` is a priority queue that gives the least element first, as a list
without any shape: only which element comes out, and what is left, can be
observed.
-/

namespace MeshCore.Lib

/-! ## Maps -/

/-- A finite map; the order of `entries` is the iteration order. -/
abbrev HashMap (κ α : Type) := AList fun _ : κ => α

namespace HashMap

variable {κ α : Type} [DecidableEq κ]

theorem lookup_insert_ite (m : HashMap κ α) (k k' : κ) (a : α) :
    (m.insert k a).lookup k' = if k' = k then some a else m.lookup k' := by
  by_cases h : k' = k
  · subst h
    rw [if_pos rfl, AList.lookup_insert]
  · rw [if_neg h, AList.lookup_insert_ne h]

theorem lookup_erase_ite (m : HashMap κ α) (k k' : κ) :
    (m.erase k).lookup k' = if k' = k then none else m.lookup k' := by
  by_cases h : k' = k
  · rw [if_pos h, h, AList.lookup_erase]
  · rw [if_neg h, AList.lookup_erase_ne h]

theorem mem_entries_iff {m : HashMap κ α} {k : κ} {a : α} :
    (⟨k, a⟩ : Sigma fun _ : κ => α) ∈ m.entries ↔ m.lookup k = some a :=
  (AList.mem_lookup_iff (s := m)).symm

/-- In a map read as a list every key occurs once, so searching it from the back finds the
value of the key. -/
theorem find?_reverse_entries (m : HashMap κ α) (k : κ) :
    (m.entries.reverse.find? fun e => e.1 = k).map (fun e => e.2) = m.lookup k := by
  have hfound : ∀ e, (m.entries.reverse.find? fun e => e.1 = k) = some e →
      m.lookup k = some e.2 := by
    intro e he
    have hkey : e.1 = k := by simpa using List.find?_some he
    rw [← hkey]
    exact mem_entries_iff.mp (List.mem_reverse.mp (List.mem_of_find?_eq_some he))
  cases hfind : m.entries.reverse.find? fun e => e.1 = k with
  | some e => exact (hfound e hfind).symm
  | none =>
    cases hlookup : m.lookup k with
    | none => rfl
    | some a =>
      have hmem := List.mem_reverse.mpr (mem_entries_iff.mpr hlookup)
      exact absurd (List.find?_eq_none.mp hfind _ hmem) (by simp)

/-- Insert the values of a list under their keys, in order. -/
def insertAll {β : Type} (key : β → κ) (val : β → α) (l : List β) (m : HashMap κ α) :
    HashMap κ α :=
  l.foldl (fun m b => m.insert (key b) (val b)) m

/-- After inserting a list, a key has the value of its last occurrence in it,
or else its old one. -/
theorem lookup_insertAll {β : Type} (key : β → κ) (val : β → α) (l : List β)
    (m : HashMap κ α) (k : κ) :
    (insertAll key val l m).lookup k
      = ((l.reverse.find? fun b => key b = k).map val).or (m.lookup k) := by
  induction l generalizing m with
  | nil => rfl
  | cons b l ih =>
    show (insertAll key val l (m.insert (key b) (val b))).lookup k = _
    rw [ih, lookup_insert_ite, List.reverse_cons, List.find?_append]
    cases hf : l.reverse.find? fun b => key b = k with
    | some c => rfl
    | none =>
      by_cases hk : key b = k
      · rw [if_pos hk.symm]
        simp [hk]
      · rw [if_neg (fun h => hk h.symm)]
        simp [hk]

/-- Inserting the entries of a list with distinct keys that pass a test. -/
theorem lookup_foldl_insert_if {β : Type} (p : κ → β → Prop) [∀ k b, Decidable (p k b)]
    (f : κ → β → α) :
    ∀ (l : List (Sigma fun _ : κ => β)) (m : HashMap κ α) (k : κ), l.NodupKeys →
      (l.foldl (fun m e => if p e.1 e.2 then m.insert e.1 (f e.1 e.2) else m) m).lookup k
        = ((l.dlookup k).bind fun b => if p k b then some (f k b) else none).or (m.lookup k)
  | [], m, k, _ => rfl
  | ⟨k', b⟩ :: l, m, k, hnd => by
    obtain ⟨hk', hnd'⟩ := List.nodupKeys_cons.mp hnd
    rw [List.foldl_cons, lookup_foldl_insert_if p f l _ k hnd']
    by_cases hk : k = k'
    · -- the key does not occur again, so nothing overwrites its value
      subst hk
      rw [List.dlookup_cons_eq, List.dlookup_eq_none.mpr hk']
      by_cases hp : p k b
      · simp [hp]
      · simp [hp]
    · rw [List.dlookup_cons_ne _ _ hk]
      by_cases hp : p k' b
      · simp only [hp, if_true, AList.lookup_insert_ne hk]
      · simp only [hp, if_false]

/-- Removing keys removes these and no others. -/
theorem lookup_foldl_erase_ite (ks : List κ) (m : HashMap κ α) (k : κ) :
    (ks.foldl (fun m k => m.erase k) m).lookup k = if k ∈ ks then none else m.lookup k := by
  induction ks generalizing m with
  | nil => rfl
  | cons k' ks ih =>
    rw [List.foldl_cons, ih]
    by_cases hk : k = k'
    · subst hk
      rw [AList.lookup_erase, ite_self, if_pos (List.mem_cons_self ..)]
    · rw [AList.lookup_erase_ne hk]
      refine if_congr ?_ rfl rfl
      rw [List.mem_cons, or_iff_right hk]

theorem lookup_foldl_erase {k : κ} (ks : List κ) (hk : k ∉ ks)
    (m : HashMap κ α) : (ks.foldl (fun m k => m.erase k) m).lookup k = m.lookup k := by
  rw [lookup_foldl_erase_ite, if_neg hk]

/-- Keep the entries whose keys pass a test. -/
def retain (p : κ → Bool) (m : HashMap κ α) : HashMap κ α :=
  ⟨m.entries.filter fun e => p e.1, m.nodupKeys.sublist List.filter_sublist⟩

theorem lookup_retain (p : κ → Bool) (m : HashMap κ α) (k : κ) :
    (m.retain p).lookup k = if p k then m.lookup k else none := by
  unfold retain AList.lookup
  dsimp only
  induction m.entries with
  | nil => simp
  | cons e l ih =>
    obtain ⟨k', a⟩ := e
    by_cases hk : k = k'
    · subst hk
      by_cases hp : p k
      · simp [hp]
      · rw [List.filter_cons_of_neg (by simpa using hp), ih]
        simp [hp]
    · rw [List.dlookup_cons_ne _ _ hk]
      by_cases hp : p k'
      · rw [List.filter_cons_of_pos (by simpa using hp), List.dlookup_cons_ne _ _ hk]
        exact ih
      · rw [List.filter_cons_of_neg (by simpa using hp)]
        exact ih

end HashMap

/-! ## Ordered maps -/

/-- A map in key order. -/
abbrev BTreeMap (κ α : Type) := List (κ × α)

/-- Insert a value, in place of the one its key had. -/
def BTreeMap.insert {κ α : Type} [DecidableEq κ] (lt : κ → κ → Bool) (m : BTreeMap κ α) (k : κ)
    (a : α) : BTreeMap κ α :=
  match m with
  | [] => [(k, a)]
  | e :: m =>
    if k = e.1 then (k, a) :: m
    else if lt k e.1 then (k, a) :: e :: m
    else e :: BTreeMap.insert lt m k a

/-! ## Priority queues -/

section MinHeap

variable {α : Type} [DecidableEq α] (le : α → α → Bool)

/-- The element that comes out first: the first least one in list order. -/
def least : α → List α → α
  | m, [] => m
  | m, x :: xs => least (if le m x then m else x) xs

/-- Take a least element out; nothing when the queue is empty. -/
def popMin : List α → Option (α × List α)
  | [] => none
  | x :: xs => some (least le x xs, (x :: xs).erase (least le x xs))

variable {le}

omit [DecidableEq α] in
theorem least_mem : ∀ (m : α) (xs : List α), least le m xs ∈ m :: xs
  | m, [] => List.mem_singleton.mpr rfl
  | m, x :: xs => by
    rw [least]
    have h := least_mem (if le m x then m else x) xs
    rcases List.mem_cons.mp h with heq | hmem
    · rw [heq]
      split
      · exact List.mem_cons_self ..
      · exact List.mem_cons_of_mem _ (List.mem_cons_self ..)
    · exact List.mem_cons_of_mem _ (List.mem_cons_of_mem _ hmem)

omit [DecidableEq α] in
theorem least_le (hrefl : ∀ a, le a a = true)
    (htrans : ∀ a b c, le a b = true → le b c = true → le a c = true)
    (htotal : ∀ a b, le a b = true ∨ le b a = true) :
    ∀ (m : α) (xs : List α), ∀ y ∈ m :: xs, le (least le m xs) y = true
  | m, [], y, hy => by
    rw [List.mem_singleton.mp hy]
    exact hrefl m
  | m, x :: xs, y, hy => by
    rw [least]
    have ih := least_le hrefl htrans htotal (if le m x then m else x) xs
    have hhead := ih _ (List.mem_cons_self ..)
    rcases List.mem_cons.mp hy with rfl | hy'
    · refine htrans _ _ _ hhead ?_
      split
      next => exact hrefl y
      next hn => exact (htotal x y).resolve_right (fun h => hn h)
    · rcases List.mem_cons.mp hy' with rfl | hy''
      · refine htrans _ _ _ hhead ?_
        split
        next h => exact h
        next => exact hrefl y
      · exact ih y (List.mem_cons_of_mem _ hy'')

theorem popMin_eq_none {h : List α} : popMin le h = none ↔ h = [] := by
  cases h with
  | nil => exact ⟨fun _ => rfl, fun _ => rfl⟩
  | cons x xs => simp [popMin]

/-- What comes out was in the queue, and the rest is what remains of it. -/
theorem popMin_perm {h rest : List α} {m : α} (hp : popMin le h = some (m, rest)) :
    m ∈ h ∧ rest = h.erase m := by
  cases h with
  | nil => simp [popMin] at hp
  | cons x xs =>
    obtain ⟨hm, hr⟩ := Prod.mk.inj (Option.some.inj hp)
    subst hm hr
    exact ⟨least_mem x xs, rfl⟩

theorem popMin_cons_perm {h rest : List α} {m : α} (hp : popMin le h = some (m, rest)) :
    h.Perm (m :: rest) := by
  obtain ⟨hm, rfl⟩ := popMin_perm hp
  exact List.perm_cons_erase hm

theorem popMin_le (hrefl : ∀ a, le a a = true)
    (htrans : ∀ a b c, le a b = true → le b c = true → le a c = true)
    (htotal : ∀ a b, le a b = true ∨ le b a = true) {h rest : List α} {m : α}
    (hp : popMin le h = some (m, rest)) : ∀ y ∈ h, le m y = true := by
  cases h with
  | nil => simp [popMin] at hp
  | cons x xs =>
    obtain ⟨hm, -⟩ := Prod.mk.inj (Option.some.inj hp)
    subst hm
    exact least_le hrefl htrans htotal x xs

end MinHeap

end MeshCore.Lib
