import MeshCore.Lib.Collections
import Mathlib.Data.List.Perm.Basic

/-!
# Ordered maps

A `BTreeMap` is a list in key order. Insertion keeps the order
(`BTreeMap.Sorted.insert`) and changes one lookup (`BTreeMap.get_insert`), and a
map in order is determined by its lookups (`BTreeMap.Sorted.ext`). So the list a
series of insertions ends with does not depend on their order, as long as each
key ends with the same value.
-/

namespace MeshCore.Lib

/-- A strict total order, as a test. -/
structure StrictOrder {κ : Type} (lt : κ → κ → Bool) : Prop where
  irrefl : ∀ a, lt a a = false
  trans : ∀ a b c, lt a b = true → lt b c = true → lt a c = true
  total : ∀ a b, a ≠ b → lt a b = false → lt b a = true

namespace BTreeMap

variable {κ α : Type} [DecidableEq κ] {lt : κ → κ → Bool}

/-- The value of a key. -/
def get (m : BTreeMap κ α) (k : κ) : Option α := (m.find? fun e => e.1 = k).map Prod.snd

/-- The keys are in order, without repetition. -/
def Sorted (lt : κ → κ → Bool) (m : BTreeMap κ α) : Prop :=
  m.Pairwise fun a b => lt a.1 b.1 = true

theorem get_nil (k : κ) : get ([] : BTreeMap κ α) k = none := rfl

theorem get_cons (e : κ × α) (m : BTreeMap κ α) (k : κ) :
    get (e :: m) k = if e.1 = k then some e.2 else m.get k := by
  unfold get
  by_cases h : e.1 = k
  · simp [h]
  · simp [h]

theorem get_insert (m : BTreeMap κ α) (k k' : κ) (a : α) :
    (m.insert lt k a).get k' = if k' = k then some a else m.get k' := by
  induction m with
  | nil =>
    rw [insert, get_cons]
    simp [eq_comm]
  | cons e m ih =>
    rw [insert]
    split
    next hk =>
      rw [get_cons, get_cons, ← hk]
      by_cases h : k' = k
      · simp [h]
      · simp [h, Ne.symm h]
    next hk =>
      split
      next =>
        rw [get_cons]
        simp [eq_comm]
      next =>
        rw [get_cons, get_cons, ih]
        by_cases h : e.1 = k'
        · have hne : k' ≠ k := fun heq => hk (heq ▸ h.symm)
          simp [h, hne]
        · simp [h]

theorem mem_insert {m : BTreeMap κ α} {k : κ} {a : α} {e : κ × α}
    (h : e ∈ m.insert lt k a) : e = (k, a) ∨ e ∈ m := by
  induction m with
  | nil => exact Or.inl (List.mem_singleton.mp h)
  | cons e' m ih =>
    rw [insert] at h
    split at h
    next =>
      rcases List.mem_cons.mp h with heq | hin
      · exact Or.inl heq
      · exact Or.inr (List.mem_cons_of_mem e' hin)
    next =>
      split at h
      next => exact List.mem_cons.mp h
      next =>
        rcases List.mem_cons.mp h with heq | hin
        · exact Or.inr (heq ▸ List.mem_cons_self ..)
        · exact (ih hin).imp id (List.mem_cons_of_mem e')

theorem mem_keys_insert (m : BTreeMap κ α) (k k' : κ) (a : α) :
    k' ∈ (m.insert lt k a).map Prod.fst ↔ k' = k ∨ k' ∈ m.map Prod.fst := by
  induction m with
  | nil => simp [insert]
  | cons e m ih =>
    rw [insert]
    split
    next hk => simp [hk]
    next hk =>
      split
      next => rw [List.map_cons, List.mem_cons]
      next =>
        rw [List.map_cons, List.mem_cons, ih, List.map_cons, List.mem_cons]
        exact or_left_comm

theorem Sorted.insert (ho : StrictOrder lt) {m : BTreeMap κ α} (h : m.Sorted lt) (k : κ) (a : α) :
    (m.insert lt k a).Sorted lt := by
  induction m with
  | nil => exact List.pairwise_singleton ..
  | cons e m ih =>
    obtain ⟨hhead, htail⟩ := List.pairwise_cons.mp h
    rw [BTreeMap.insert]
    split
    next hk => exact List.pairwise_cons.mpr ⟨fun x hx => hk ▸ hhead x hx, htail⟩
    next hk =>
      split
      next hlt =>
        refine List.pairwise_cons.mpr ⟨fun x hx => ?_, h⟩
        rcases List.mem_cons.mp hx with rfl | hin
        · exact hlt
        · exact ho.trans _ _ _ hlt (hhead x hin)
      next hlt =>
        refine List.pairwise_cons.mpr ⟨fun x hx => ?_, ih htail⟩
        rcases mem_insert hx with rfl | hin
        · exact ho.total _ _ hk (Bool.eq_false_iff.mpr hlt)
        · exact hhead x hin

/-- Among distinct keys, a lookup finds what is there, in whatever order. -/
theorem get_eq_some_of_nodup {m : BTreeMap κ α} (h : (m.map Prod.fst).Nodup) {k : κ} {a : α} :
    m.get k = some a ↔ (k, a) ∈ m := by
  induction m with
  | nil => simp [get_nil]
  | cons e m ih =>
    obtain ⟨hhead, htail⟩ := List.nodup_cons.mp h
    rw [get_cons, List.mem_cons]
    split
    next hk =>
      have hnot : (k, a) ∉ m := fun hin => hhead (hk ▸ List.mem_map_of_mem hin)
      simp [hnot, Prod.ext_iff, hk, eq_comm]
    next hk =>
      have hne : (k, a) ≠ e := fun heq => hk (heq ▸ rfl)
      simp only [hne, false_or]
      exact ih htail

theorem get_perm {m m' : BTreeMap κ α} (hperm : m'.Perm m) (h : (m.map Prod.fst).Nodup) (k : κ) :
    m'.get k = m.get k := by
  refine Option.ext fun a => ?_
  rw [get_eq_some_of_nodup h, get_eq_some_of_nodup ((hperm.map Prod.fst).nodup_iff.mpr h),
    hperm.mem_iff]

omit [DecidableEq κ] in
theorem Sorted.nodup_keys (ho : StrictOrder lt) {m : BTreeMap κ α} (h : m.Sorted lt) :
    (m.map Prod.fst).Nodup := by
  refine List.pairwise_map.mpr (h.imp ?_)
  intro a b hlt heq
  rw [heq, ho.irrefl] at hlt
  exact absurd hlt (by simp)

theorem get_eq_some_iff (ho : StrictOrder lt) {m : BTreeMap κ α} (h : m.Sorted lt) {k : κ} {a : α} :
    m.get k = some a ↔ (k, a) ∈ m :=
  get_eq_some_of_nodup (h.nodup_keys ho)

/-- **A map in order is determined by its lookups.** -/
theorem Sorted.ext (ho : StrictOrder lt) {m₁ m₂ : BTreeMap κ α} (h₁ : m₁.Sorted lt)
    (h₂ : m₂.Sorted lt) (hget : ∀ k, m₁.get k = m₂.get k) : m₁ = m₂ := by
  have hperm : m₁.Perm m₂ := by
    refine (List.perm_ext_iff_of_nodup (h₁.nodup_keys ho).of_map (h₂.nodup_keys ho).of_map).mpr ?_
    rintro ⟨k, a⟩
    rw [← get_eq_some_iff ho h₁, ← get_eq_some_iff ho h₂, hget]
  refine hperm.eq_of_pairwise ?_ h₁ h₂
  intro a b _ _ hab hba
  have haa := ho.trans _ _ _ hab hba
  rw [ho.irrefl] at haa
  exact absurd haa (by simp)

/-- Insert the values of a list under their keys, in order. -/
def insertAll {β : Type} (lt : κ → κ → Bool) (key : β → κ) (val : β → α) (l : List β)
    (m : BTreeMap κ α) : BTreeMap κ α :=
  l.foldl (fun m b => m.insert lt (key b) (val b)) m

/-- Inserting the entries of a list with distinct keys that pass a test. -/
theorem get_foldl_insert_if {β : Type} (p : κ → β → Prop) [∀ k b, Decidable (p k b)]
    (f : κ → β → α) :
    ∀ (l : List (Sigma fun _ : κ => β)) (m : BTreeMap κ α) (k : κ), l.NodupKeys →
      BTreeMap.get (l.foldl (fun m e => if p e.1 e.2 then m.insert lt e.1 (f e.1 e.2) else m) m) k
        = ((l.dlookup k).bind fun b => if p k b then some (f k b) else none).or (m.get k)
  | [], m, k, _ => rfl
  | ⟨k', b⟩ :: l, m, k, hnd => by
    obtain ⟨hk', hnd'⟩ := List.nodupKeys_cons.mp hnd
    rw [List.foldl_cons, get_foldl_insert_if p f l _ k hnd']
    by_cases hk : k = k'
    · -- the key does not occur again, so nothing overwrites its value
      subst hk
      rw [List.dlookup_cons_eq, List.dlookup_eq_none.mpr hk']
      by_cases hp : p k b
      · simp [hp, get_insert]
      · simp [hp]
    · rw [List.dlookup_cons_ne _ _ hk]
      by_cases hp : p k' b
      · simp only [hp, if_true, get_insert, if_neg hk]
      · simp only [hp, if_false]

theorem Sorted.foldl_insert_if (ho : StrictOrder lt) {β : Type} (p : κ → β → Prop)
    [∀ k b, Decidable (p k b)] (f : κ → β → α) (l : List (Sigma fun _ : κ => β))
    {m : BTreeMap κ α} (h : m.Sorted lt) :
    Sorted lt (l.foldl (fun m e => if p e.1 e.2 then m.insert lt e.1 (f e.1 e.2) else m) m) := by
  induction l generalizing m with
  | nil => exact h
  | cons e l ih =>
    rw [List.foldl_cons]
    split
    · exact ih (h.insert ho _ _)
    · exact ih h

/-- What a function makes of the entries, those left out for which it gives
nothing. -/
def collect {β : Type} (g : κ → α → Option β) (m : BTreeMap κ α) : HashMap κ β :=
  m.foldl (fun acc e => match g e.1 e.2 with
    | some b => acc.insert e.1 b
    | none => acc) ∅

theorem lookup_collect (ho : StrictOrder lt) {β : Type} (g : κ → α → Option β)
    {m : BTreeMap κ α} (h : m.Sorted lt) (k : κ) :
    (m.collect g).lookup k = (m.get k).bind (g k) := by
  suffices hgen : ∀ acc : HashMap κ β, AList.lookup k (m.foldl (fun acc e =>
      match g e.1 e.2 with
      | some b => acc.insert e.1 b
      | none => acc) acc) = ((m.get k).bind (g k)).or (acc.lookup k) from
    (hgen ∅).trans (Option.or_none ..)
  intro acc
  induction m generalizing acc with
  | nil => rfl
  | cons e m ih =>
    obtain ⟨hhead, htail⟩ := List.pairwise_cons.mp h
    rw [List.foldl_cons, ih htail, get_cons]
    by_cases hk : e.1 = k
    · -- the key is not in the rest, which lies above it
      have hnone : BTreeMap.get m k = none := by
        cases hg : BTreeMap.get m k with
        | none => rfl
        | some a =>
          have hlt := hhead (k, a) ((get_eq_some_iff ho htail).mp hg)
          rw [hk, ho.irrefl] at hlt
          exact absurd hlt (by simp)
      subst hk
      rw [if_pos rfl, hnone]
      cases hg : g e.1 e.2 with
      | none => simp [hg]
      | some b => simp [hg]
    · rw [if_neg hk]
      cases g e.1 e.2 with
      | none => rfl
      | some b => rw [AList.lookup_insert_ne (Ne.symm hk)]

/-- A key above all others goes to the end. -/
theorem insert_of_above (ho : StrictOrder lt) {m : BTreeMap κ α} {k : κ} (a : α)
    (h : ∀ e ∈ m, lt e.1 k = true) : m.insert lt k a = m ++ [(k, a)] := by
  induction m with
  | nil => rfl
  | cons e m ih =>
    have he := h e (List.mem_cons_self ..)
    have hne : k ≠ e.1 := by
      intro heq
      rw [heq, ho.irrefl] at he
      exact absurd he (by simp)
    have hnlt : ¬ lt k e.1 = true := by
      intro hlt
      have hself := ho.trans _ _ _ hlt he
      rw [ho.irrefl] at hself
      exact absurd hself (by simp)
    rw [insert, if_neg hne, if_neg hnlt, ih (fun x hx => h x (List.mem_cons_of_mem e hx))]
    rfl

/-- Inserting the entries of a map in order gives the map. -/
theorem Sorted.insertAll_self (ho : StrictOrder lt) {m : BTreeMap κ α} (h : m.Sorted lt) :
    BTreeMap.insertAll lt Prod.fst Prod.snd m [] = m := by
  suffices hgen : ∀ (l acc : BTreeMap κ α), Sorted lt (acc ++ l) →
      acc.insertAll lt Prod.fst Prod.snd l = acc ++ l from hgen m [] h
  intro l
  induction l with
  | nil =>
    intro acc _
    exact (List.append_nil acc).symm
  | cons e l ih =>
    intro acc hs
    have habove : ∀ x ∈ acc, lt x.1 e.1 = true := by
      intro x hx
      exact (List.pairwise_append.mp hs).2.2 x hx e (List.mem_cons_self ..)
    have hmove : acc ++ e :: l = acc ++ [e] ++ l := (List.append_cons ..)
    show (acc.insert lt e.1 e.2).insertAll lt Prod.fst Prod.snd l = _
    rw [insert_of_above ho e.2 habove, hmove]
    exact ih (acc ++ [e]) (hmove ▸ hs)

end BTreeMap

end MeshCore.Lib
