import Mathlib.Data.Finset.Card
import Mathlib.Data.List.Chain
import Mathlib.Order.Bounds.Basic

/-!
# Directed graphs with costs

A vertex has a finite set of successors and every edge a natural cost, zero
included. `Walk G a b c` says that some walk from `a` to `b` costs exactly `c`;
costs are unbounded, so nothing saturates here. A shortest distance is then
`IsLeast {c | G.Walk a b c}`.

The second half is about following a predecessor map back to a source:
`Chain prev src n v` says that `n` steps of `prev` lead from `v` to `src`. As
`prev` is a function the number of steps is determined, so the vertices on the
way are distinct (`Chain.exists_path`) and the chain is no longer than the map has
entries (`Chain.le_card`): a loop that walks back along it always ends.
-/

namespace MeshCore.Lib

/-- A directed graph with natural edge costs; `cost u v` matters only for
`v ∈ out u`. -/
structure CostGraph (V : Type) where
  out : V → Finset V
  cost : V → V → Nat

namespace CostGraph

variable {V : Type} {G : CostGraph V}

/-- Some walk from the first vertex to the second has exactly this cost. -/
inductive Walk (G : CostGraph V) : V → V → Nat → Prop where
  | nil (a : V) : Walk G a a 0
  | snoc {a b v : V} {c : Nat} : Walk G a b c → v ∈ G.out b → Walk G a v (c + G.cost b v)

theorem Walk.append {a b c : V} {m n : Nat} (h₁ : G.Walk a b m) (h₂ : G.Walk b c n) :
    G.Walk a c (m + n) := by
  induction h₂ with
  | nil => exact h₁
  | snoc _ hv ih => exact Nat.add_assoc .. ▸ Walk.snoc ih hv

theorem Walk.edge {a b : V} (h : b ∈ G.out a) : G.Walk a b (G.cost a b) := by
  have := Walk.snoc (Walk.nil a) h
  rwa [Nat.zero_add] at this

/-- A walk is empty or starts with an edge. -/
theorem Walk.cases_head {a b : V} {c : Nat} (h : G.Walk a b c) :
    (a = b ∧ c = 0) ∨ ∃ v c', v ∈ G.out a ∧ G.Walk v b c' ∧ c = G.cost a v + c' := by
  induction h with
  | nil => exact Or.inl ⟨rfl, rfl⟩
  | @snoc b v c hw hv ih =>
    rcases ih with ⟨rfl, rfl⟩ | ⟨x, c', hx, hxb, rfl⟩
    · exact Or.inr ⟨v, 0, hv, Walk.nil v, Nat.add_comm ..⟩
    · exact Or.inr ⟨x, c' + G.cost b v, hx, Walk.snoc hxb hv, Nat.add_assoc ..⟩

/-- **Optimal substructure.** If going through the edge `a → b` attains the
least cost from `a` to `c`, the rest attains the least cost from `b` to `c`. -/
theorem isLeast_tail {a b c : V} {n : Nat} (hb : b ∈ G.out a)
    (h : IsLeast {m | G.Walk a c m} (G.cost a b + n)) (hw : G.Walk b c n) :
    IsLeast {m | G.Walk b c m} n := by
  refine ⟨hw, fun m hm => ?_⟩
  have := h.2 ((Walk.edge hb).append hm)
  omega

end CostGraph

/-! ## Predecessor chains -/

/-- `n` steps of `prev` lead from a vertex to `src`. -/
inductive Chain {V : Type} (prev : V → Option V) (src : V) : Nat → V → Prop where
  | here : Chain prev src 0 src
  | back {v u : V} {n : Nat} : prev v = some u → Chain prev src n u → Chain prev src (n + 1) v

namespace Chain

variable {V : Type} {prev : V → Option V} {src : V}

/-- The number of steps is determined, given that the source has no
predecessor. -/
theorem unique (hsrc : prev src = none) {m n : Nat} {v : V} (hm : Chain prev src m v)
    (hn : Chain prev src n v) : m = n := by
  induction hm generalizing n with
  | here =>
    cases hn with
    | here => rfl
    | back hp _ => rw [hsrc] at hp; exact absurd hp (by simp)
  | back hp _ ih =>
    cases hn with
    | here => rw [hsrc] at hp; exact absurd hp (by simp)
    | back hp' hc =>
      rw [hp] at hp'
      obtain rfl := Option.some.inj hp'
      rw [ih hc]

/-- The way back as a list: from the vertex to the source, each the predecessor of the one
before, and no vertex twice. All but the source have a predecessor. -/
theorem exists_path (hsrc : prev src = none) {n : Nat} {v : V} (h : Chain prev src n v) :
    ∃ l : List V, l.length = n ∧ (l ++ [src]).head? = some v ∧
      (l ++ [src]).IsChain (fun v u => prev v = some u) ∧ (l ++ [src]).Nodup ∧
      ∀ x ∈ l, prev x ≠ none ∧ ∃ i, i ≤ n ∧ Chain prev src i x := by
  induction h with
  | here =>
    exact ⟨[], rfl, rfl, List.isChain_singleton _, List.nodup_singleton _,
      fun x hx => absurd hx (by simp)⟩
  | @back v u n hp hc ih =>
    obtain ⟨l, hlen, hhead, hchain, hnd, hl⟩ := ih
    have hv : v ∉ l ++ [src] := by
      intro hmem
      rcases List.mem_append.mp hmem with hmem | hmem
      · -- a second visit of `v` would be fewer steps away from the source
        obtain ⟨-, i, hi, hci⟩ := hl v hmem
        have := unique hsrc hci (Chain.back hp hc)
        omega
      · rw [List.mem_singleton.mp hmem, hsrc] at hp
        exact absurd hp (by simp)
    refine ⟨v :: l, by rw [List.length_cons, hlen], rfl, ?_, List.nodup_cons.mpr ⟨hv, hnd⟩, ?_⟩
    · refine List.isChain_cons.mpr ⟨fun y hy => ?_, hchain⟩
      exact hp.trans (hhead.symm.trans hy)
    · intro x hx
      rcases List.mem_cons.mp hx with rfl | hx'
      · exact ⟨by rw [hp]; simp, n + 1, Nat.le_refl _, Chain.back hp hc⟩
      · obtain ⟨hpx, i, hi, hci⟩ := hl x hx'
        exact ⟨hpx, i, by omega, hci⟩

/-- A chain is no longer than the number of vertices with a predecessor. -/
theorem le_card (hsrc : prev src = none) {S : List V} (hS : ∀ x, prev x ≠ none → x ∈ S)
    {n : Nat} {v : V} (h : Chain prev src n v) : n ≤ S.length := by
  obtain ⟨l, hlen, -, -, hnd, hl⟩ := h.exists_path hsrc
  have hsub : l ⊆ S := fun x hx => hS x (hl x hx).1
  rw [← hlen]
  exact (hnd.of_append_left.subperm hsub).length_le

end Chain

/-- `n` steps of `prev` lead from a vertex to `src`, the last of them from `w`:
seen from the source, `w` is the first hop. -/
inductive FirstHop {V : Type} (prev : V → Option V) (src w : V) : Nat → V → Prop where
  | last : prev w = some src → FirstHop prev src w 1 w
  | back {v u : V} {n : Nat} : prev v = some u → u ≠ src → FirstHop prev src w n u →
      FirstHop prev src w (n + 1) v

theorem FirstHop.chain {V : Type} {prev : V → Option V} {src w v : V} {n : Nat}
    (h : FirstHop prev src w n v) : Chain prev src n v := by
  induction h with
  | last hp => exact Chain.back hp Chain.here
  | back hp _ _ ih => exact Chain.back hp ih

/-- Every chain from a vertex other than the source has a first hop. -/
theorem Chain.exists_firstHop {V : Type} {prev : V → Option V} {src : V} {n : Nat} {v : V}
    (hsrc : prev src = none) (h : Chain prev src n v) (hv : v ≠ src) :
    ∃ w, FirstHop prev src w n v := by
  induction h with
  | here => exact absurd rfl hv
  | @back v u n hp hc ih =>
    -- the first hop is the vertex whose predecessor is the source
    by_cases hu : u = src
    · subst hu
      cases hc with
      | here => exact ⟨v, FirstHop.last hp⟩
      | back hp' _ => rw [hsrc] at hp'; exact absurd hp' (by simp)
    · obtain ⟨w, hw⟩ := ih hu
      exact ⟨w, FirstHop.back hp hu hw⟩

end MeshCore.Lib
