import Mathlib.Data.Fintype.Card
import Mathlib.Logic.Function.Basic

/-!
# Spreading over a graph with a hop budget

Something starts at `root` and is handed on over the edges `next`, at most
`limit` times in a row. Each vertex keeps the first copy it gets, and with it
the number of hops that copy has made, which need not be the least possible.
`Spread next root limit depth` says that `depth` can come about in this way:
the root has 0, and every other reached vertex has a predecessor with one hop
less.

A spread is `Complete` when no vertex below the limit has an unreached
successor: nothing is left to hand on. Completeness does not make every vertex
reached, however near the root all of them are, because a vertex can be reached
the long way round and have no hops left for its successors.

`Spread.grow` is the induction rule: every spread over a finite graph is built
from the root alone by reaching one more vertex at a time.
-/

namespace MeshCore.Lib

variable {V : Type}

/-- A possible assignment of hop counts to the vertices reached. -/
structure Spread (next : V → V → Prop) (root : V) (limit : Nat) (depth : V → Option Nat) :
    Prop where
  root_depth : depth root = some 0
  root_unique : ∀ v, depth v = some 0 → v = root
  reached : ∀ v k, depth v = some (k + 1) → k < limit ∧ ∃ u, depth u = some k ∧ next u v

/-- Nothing is left to hand on. -/
def Complete (next : V → V → Prop) (limit : Nat) (depth : V → Option Nat) : Prop :=
  ∀ u v k, depth u = some k → k < limit → next u v → (depth v).isSome

variable [DecidableEq V]

/-- Only the root is reached. -/
def atRoot (root : V) : V → Option Nat := Function.update (fun _ => none) root (some 0)

theorem atRoot_eq_some {root v : V} {k : Nat} (h : atRoot root v = some k) : v = root ∧ k = 0 := by
  unfold atRoot at h
  by_cases hv : v = root
  · subst hv
    rw [Function.update_self] at h
    exact ⟨rfl, (Option.some.inj h).symm⟩
  · rw [Function.update_of_ne hv] at h
    exact absurd h (by simp)

variable {next : V → V → Prop} {root : V} {limit : Nat}

theorem spread_atRoot (next : V → V → Prop) (root : V) (limit : Nat) :
    Spread next root limit (atRoot root) where
  root_depth := Function.update_self ..
  root_unique _ hv := (atRoot_eq_some hv).1
  reached _ k hv := absurd (atRoot_eq_some hv).2 (Nat.succ_ne_zero k)

/-- An unreached successor of a vertex below the limit can be reached from it. -/
theorem Spread.extend {depth : V → Option Nat} (h : Spread next root limit depth) {u v : V}
    {k : Nat} (hu : depth u = some k) (hk : k < limit) (huv : next u v) (hv : depth v = none) :
    Spread next root limit (Function.update depth v (some (k + 1))) := by
  -- what has a depth keeps it, since only an unreached vertex gets a new one
  have hkeep : ∀ w j, depth w = some j →
      Function.update depth v (some (k + 1)) w = some j := by
    intro w j hw
    have hne : w ≠ v := by
      intro heq
      rw [heq, hv] at hw
      exact absurd hw (by simp)
    rw [Function.update_of_ne hne]
    exact hw
  refine ⟨hkeep root 0 h.root_depth, ?_, ?_⟩
  · intro w hw
    by_cases hwv : w = v
    · subst hwv
      rw [Function.update_self] at hw
      exact absurd (Option.some.inj hw) (Nat.succ_ne_zero k)
    · rw [Function.update_of_ne hwv] at hw
      exact h.root_unique w hw
  · intro w j hw
    by_cases hwv : w = v
    · subst hwv
      rw [Function.update_self] at hw
      have hjk : k = j := Nat.succ_injective (Option.some.inj hw)
      subst hjk
      exact ⟨hk, u, hkeep u k hu, huv⟩
    · rw [Function.update_of_ne hwv] at hw
      obtain ⟨hj, p, hp, hpw⟩ := h.reached w j hw
      exact ⟨hj, p, hkeep p j hp, hpw⟩

/-- The part of `target` that `depth` has is the same there. -/
def Below (depth target : V → Option Nat) : Prop := ∀ v k, depth v = some k → target v = some k

omit [DecidableEq V] in
/-- A spread with a vertex missing lacks one whose predecessor it has. -/
theorem Spread.exists_next {depth target : V → Option Nat} (htarget : Spread next root limit target)
    (hroot : depth root = some 0) (hbelow : Below depth target) {w : V} {j : Nat}
    (hw : target w = some j) (hmissing : depth w = none) :
    ∃ u v k, depth u = some k ∧ k < limit ∧ next u v ∧ target v = some (k + 1) ∧
      depth v = none := by
  induction j generalizing w with
  | zero =>
    rw [htarget.root_unique w hw, hroot] at hmissing
    exact absurd hmissing (by simp)
  | succ j ih =>
    obtain ⟨hj, p, hp, hpw⟩ := htarget.reached w j hw
    -- either the predecessor is there, or it is missing one hop nearer to the root
    cases hdp : depth p with
    | none => exact ih hp hdp
    | some k =>
      have hk : k = j := Option.some.inj ((hbelow p k hdp).symm.trans hp)
      subst hk
      exact ⟨p, w, k, hdp, hj, hpw, hw, hmissing⟩

variable [Fintype V]

/-- The vertices of `target` that `depth` has not reached. -/
def missing (depth target : V → Option Nat) : Finset V :=
  Finset.univ.filter fun v => depth v ≠ target v

omit [DecidableEq V] in
theorem mem_missing {depth target : V → Option Nat} {v : V} :
    v ∈ missing depth target ↔ depth v ≠ target v := by
  unfold missing
  simp

omit [DecidableEq V] in
theorem Below.of_missing {depth target : V → Option Nat} (h : Below depth target) {v : V}
    (hv : v ∈ missing depth target) : depth v = none ∧ ∃ k, target v = some k := by
  have hne := mem_missing.mp hv
  cases hd : depth v with
  | some k => exact absurd (hd.trans (h v k hd).symm) hne
  | none =>
    cases ht : target v with
    | some k => exact ⟨rfl, k, rfl⟩
    | none => exact absurd (hd.trans ht.symm) hne

/-- Reaching one more vertex of the target leaves one fewer missing. -/
theorem card_missing_update {depth target : V → Option Nat} {v : V} {k : Nat}
    (hv : target v = some k) (hdv : depth v = none) :
    (missing (Function.update depth v (some k)) target).card + 1
      = (missing depth target).card := by
  have herase : missing (Function.update depth v (some k)) target
      = (missing depth target).erase v := by
    ext x
    rw [Finset.mem_erase, mem_missing, mem_missing]
    by_cases hxv : x = v
    · subst hxv
      simp [hv]
    · simp [hxv]
  have hmem : v ∈ missing depth target := by
    rw [mem_missing, hdv, hv]
    simp
  rw [herase]
  exact Finset.card_erase_add_one hmem

/-- **The induction rule.** A property of the spread at the root alone, kept by
reaching one more vertex of `target`, holds of `target`. -/
theorem Spread.grow {target : V → Option Nat} (htarget : Spread next root limit target)
    {P : (V → Option Nat) → Prop} (hroot : P (atRoot root))
    (hgrow : ∀ depth u v k, P depth → depth u = some k → k < limit → next u v →
      depth v = none → P (Function.update depth v (some (k + 1)))) :
    P target := by
  suffices h : ∀ n depth, P depth → depth root = some 0 → Below depth target →
      (missing depth target).card = n → P target by
    refine h _ (atRoot root) hroot (Function.update_self ..) ?_ rfl
    intro v k hv
    rw [(atRoot_eq_some hv).1, (atRoot_eq_some hv).2]
    exact htarget.root_depth
  -- induction on the number of vertices still missing
  intro n
  induction n with
  | zero =>
    intro depth hP _ _ hcard
    have heq : depth = target := by
      funext v
      by_contra hne
      have hmem := mem_missing.mpr hne
      rw [Finset.card_eq_zero.mp hcard] at hmem
      exact absurd hmem (Finset.notMem_empty v)
    exact heq ▸ hP
  | succ n ih =>
    intro depth hP hdr hbelow hcard
    obtain ⟨w, hw⟩ := Finset.card_pos.mp (Nat.lt_of_lt_of_eq (Nat.succ_pos n) hcard.symm)
    obtain ⟨hmissing, j, hwj⟩ := hbelow.of_missing hw
    obtain ⟨u, v, k, hu, hk, huv, hv, hdv⟩ := htarget.exists_next hdr hbelow hwj hmissing
    have hvr : root ≠ v := by
      intro heq
      rw [← heq, hdr] at hdv
      exact absurd hdv (by simp)
    refine ih (Function.update depth v (some (k + 1))) (hgrow depth u v k hP hu hk huv hdv)
      ((Function.update_of_ne hvr ..).trans hdr) ?_ ?_
    · intro x i hx
      by_cases hxv : x = v
      · subst hxv
        rw [Function.update_self] at hx
        rw [← hx]
        exact hv
      · rw [Function.update_of_ne hxv] at hx
        exact hbelow x i hx
    · have hstep := card_missing_update hv hdv
      omega

end MeshCore.Lib
