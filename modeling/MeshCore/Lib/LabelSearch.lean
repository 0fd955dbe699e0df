import MeshCore.Lib.CostGraph
import Mathlib.Algebra.Order.BigOperators.Group.Finset
import Mathlib.Algebra.BigOperators.Ring.Finset
import Mathlib.Logic.Relation

/-!
# Label-correcting search with lazy deletion

The general form of a shortest-path search that keeps stale entries in its
queue. A state has a distance label and a predecessor for every vertex, and a
multiset of queue entries `(d, u)`. A step takes one entry out: if `d` is above
the label of `u` the entry is stale and nothing else happens; otherwise every
edge out of `u` is relaxed, each improved vertex gets a new label, the
predecessor `u` and a new entry. Labels are capped at `M`, which serves both as
"unreachable" and as the value at which sums saturate.

Nothing about *which* entry is taken enters the correctness argument: `Inv` is
kept by every step, and says enough that with an empty queue the labels are the
least walk costs below the cap (`Inv.isLeast`), every predecessor is a tight
edge (`Inv.prev_tight`), and following predecessors reaches the source
(`Inv.chain`). The last one holds with zero-cost edges too, for which labels
alone do not order the vertices: a vertex is only improved when its label was
above the label of the vertex it hangs below, so no chain through `u` can pass
through a vertex `u` improves.

`potential` bounds the number of steps. The choice of the entry matters only for
determinism: `MinStep` takes a least entry of an antisymmetric order, and then
the run has one outcome (`MinRun.unique`).
-/

namespace MeshCore.Lib

open CostGraph

/-- Distance labels, predecessors and pending entries. -/
structure Labels (V : Type) where
  dist : V → Nat
  prev : V → Option V
  queue : Multiset (Nat × V)

namespace Labels

variable {V : Type} [DecidableEq V]

/-- The vertices whose label an edge out of `u` at price `d` lowers. -/
def improved (G : CostGraph V) (M : Nat) (s : Labels V) (d : Nat) (u : V) : Finset V :=
  (G.out u).filter fun v => min (d + G.cost u v) M < s.dist v

/-- Relax every edge out of `u` at price `d`. -/
def relax (G : CostGraph V) (M : Nat) (s : Labels V) (d : Nat) (u : V) : Labels V where
  dist v := if v ∈ s.improved G M d u then min (d + G.cost u v) M else s.dist v
  prev v := if v ∈ s.improved G M d u then some u else s.prev v
  queue := s.queue + (s.improved G M d u).val.map fun v => (min (d + G.cost u v) M, v)

/-- Drop one entry of the queue. -/
def drop (s : Labels V) (e : Nat × V) : Labels V := { s with queue := s.queue.erase e }

/-- What taking the entry `e` out of the queue does. -/
def take (G : CostGraph V) (M : Nat) (s : Labels V) (e : Nat × V) : Labels V :=
  if s.dist e.2 < e.1 then s.drop e else (s.drop e).relax G M e.1 e.2

omit [DecidableEq V] in
theorem mem_improved {G : CostGraph V} {M d : Nat} {s : Labels V} {u v : V} :
    v ∈ s.improved G M d u ↔ v ∈ G.out u ∧ min (d + G.cost u v) M < s.dist v :=
  Finset.mem_filter

theorem relax_dist_of_mem {G : CostGraph V} {M d : Nat} {s : Labels V} {u v : V}
    (h : v ∈ s.improved G M d u) : (s.relax G M d u).dist v = min (d + G.cost u v) M :=
  if_pos h

theorem relax_dist_of_not_mem {G : CostGraph V} {M d : Nat} {s : Labels V} {u v : V}
    (h : v ∉ s.improved G M d u) : (s.relax G M d u).dist v = s.dist v :=
  if_neg h

theorem relax_prev_of_mem {G : CostGraph V} {M d : Nat} {s : Labels V} {u v : V}
    (h : v ∈ s.improved G M d u) : (s.relax G M d u).prev v = some u :=
  if_pos h

theorem relax_prev_of_not_mem {G : CostGraph V} {M d : Nat} {s : Labels V} {u v : V}
    (h : v ∉ s.improved G M d u) : (s.relax G M d u).prev v = s.prev v :=
  if_neg h

theorem relax_dist_le {G : CostGraph V} {M d : Nat} {s : Labels V} {u : V} (v : V) :
    (s.relax G M d u).dist v ≤ s.dist v := by
  by_cases hv : v ∈ s.improved G M d u
  · rw [relax_dist_of_mem hv]
    exact Nat.le_of_lt (mem_improved.mp hv).2
  · rw [relax_dist_of_not_mem hv]

/-- The edges out of `u` are relaxed. -/
theorem relax_dist_out {G : CostGraph V} {M d : Nat} {s : Labels V} {u v : V} (hv : v ∈ G.out u) :
    (s.relax G M d u).dist v ≤ min (d + G.cost u v) M := by
  by_cases hmem : v ∈ s.improved G M d u
  · rw [relax_dist_of_mem hmem]
  · rw [relax_dist_of_not_mem hmem]
    exact Nat.le_of_not_lt fun hlt => hmem (mem_improved.mpr ⟨hv, hlt⟩)

theorem mem_relax_queue {G : CostGraph V} {M d : Nat} {s : Labels V} {u : V} {e : Nat × V} :
    e ∈ (s.relax G M d u).queue ↔
      e ∈ s.queue ∨ (e.2 ∈ s.improved G M d u ∧ e.1 = (s.relax G M d u).dist e.2) := by
  show e ∈ s.queue + _ ↔ _
  rw [Multiset.mem_add, Multiset.mem_map]
  refine or_congr Iff.rfl ⟨?_, ?_⟩
  · intro h
    obtain ⟨v, hv, rfl⟩ := h
    exact ⟨hv, (relax_dist_of_mem hv).symm⟩
  · intro h
    refine ⟨e.2, h.1, Prod.ext ?_ rfl⟩
    rw [h.2, relax_dist_of_mem h.1]

/-! ## Relaxing the edges one by one -/

/-- Relax the edge from `u` to `v` at price `d`. -/
def relaxEdge (G : CostGraph V) (M d : Nat) (u : V) (s : Labels V) (v : V) : Labels V :=
  if min (d + G.cost u v) M < s.dist v then
    { dist := Function.update s.dist v (min (d + G.cost u v) M)
      prev := Function.update s.prev v (some u)
      queue := (min (d + G.cost u v) M, v) ::ₘ s.queue }
  else s

theorem relaxEdge_dist (G : CostGraph V) (M d : Nat) (u : V) (s : Labels V) (v w : V) :
    (relaxEdge G M d u s v).dist w
      = if w = v ∧ min (d + G.cost u v) M < s.dist v then min (d + G.cost u v) M
        else s.dist w := by
  unfold relaxEdge
  by_cases hlt : min (d + G.cost u v) M < s.dist v
  · rw [if_pos hlt, if_congr (and_iff_left hlt) rfl rfl]
    exact Function.update_apply ..
  · rw [if_neg hlt, if_neg fun h => hlt h.2]

theorem relaxEdge_prev (G : CostGraph V) (M d : Nat) (u : V) (s : Labels V) (v w : V) :
    (relaxEdge G M d u s v).prev w
      = if w = v ∧ min (d + G.cost u v) M < s.dist v then some u else s.prev w := by
  unfold relaxEdge
  by_cases hlt : min (d + G.cost u v) M < s.dist v
  · rw [if_pos hlt, if_congr (and_iff_left hlt) rfl rfl]
    exact Function.update_apply ..
  · rw [if_neg hlt, if_neg fun h => hlt h.2]

theorem relaxEdge_dist_of_ne {G : CostGraph V} {M d : Nat} {u v w : V} {s : Labels V}
    (h : w ≠ v) : (relaxEdge G M d u s v).dist w = s.dist w := by
  rw [relaxEdge_dist, if_neg fun hand => h hand.1]

/-- What relaxing a list of distinct vertices does, vertex by vertex. -/
theorem foldl_relaxEdge_spec (G : CostGraph V) (M d : Nat) (u : V) :
    ∀ (vs : List V) (s : Labels V), vs.Nodup →
      (∀ v, (vs.foldl (relaxEdge G M d u) s).dist v
        = if v ∈ vs ∧ min (d + G.cost u v) M < s.dist v then min (d + G.cost u v) M
          else s.dist v) ∧
      (∀ v, (vs.foldl (relaxEdge G M d u) s).prev v
        = if v ∈ vs ∧ min (d + G.cost u v) M < s.dist v then some u else s.prev v) ∧
      (vs.foldl (relaxEdge G M d u) s).queue
        = s.queue + ((vs.filter fun v => min (d + G.cost u v) M < s.dist v).map
            fun v => (min (d + G.cost u v) M, v) : List (Nat × V))
  | [], s, _ => by simp
  | x :: vs, s, hnd => by
    obtain ⟨hx, hnd'⟩ := List.nodup_cons.mp hnd
    obtain ⟨hdist, hprev, hqueue⟩ := foldl_relaxEdge_spec G M d u vs (relaxEdge G M d u s x) hnd'
    rw [List.foldl_cons]
    -- the rest of the list still sees the labels it saw before `x` was relaxed
    have hne : ∀ v ∈ vs, v ≠ x := fun v hv he => hx (he ▸ hv)
    have hfilter : (vs.filter fun v =>
          decide (min (d + G.cost u v) M < (relaxEdge G M d u s x).dist v))
        = vs.filter fun v => decide (min (d + G.cost u v) M < s.dist v) :=
      List.filter_congr fun v hv => by rw [relaxEdge_dist_of_ne (hne v hv)]
    refine ⟨fun v => ?_, fun v => ?_, ?_⟩
    · rw [hdist]
      by_cases hvx : v = x
      · subst hvx
        rw [if_neg (fun h => hx h.1), relaxEdge_dist]
        simp only [List.mem_cons, true_or, true_and]
      · rw [relaxEdge_dist_of_ne hvx]
        simp only [List.mem_cons, hvx, false_or]
    · rw [hprev, relaxEdge_prev]
      by_cases hvx : v = x
      · subst hvx
        rw [if_neg (fun h => hx h.1)]
        simp only [List.mem_cons, true_or, true_and]
      · rw [relaxEdge_dist_of_ne hvx]
        simp only [List.mem_cons, hvx, false_or, false_and, if_false]
    · rw [hqueue, hfilter]
      unfold relaxEdge
      by_cases hlt : min (d + G.cost u x) M < s.dist x
      · rw [if_pos hlt, List.filter_cons_of_pos (by simpa using hlt), List.map_cons,
          ← Multiset.cons_coe, Multiset.add_cons, Multiset.cons_add]
      · rw [if_neg hlt, List.filter_cons_of_neg (by simpa using hlt)]

/-- **Relaxing the edges out of `u` one by one, in any order, relaxes them all.** -/
theorem foldl_relaxEdge {G : CostGraph V} {M d : Nat} {u : V} {s : Labels V} {vs : List V}
    (hnd : vs.Nodup) (hout : G.out u = vs.toFinset) :
    vs.foldl (relaxEdge G M d u) s = s.relax G M d u := by
  obtain ⟨hdist, hprev, hqueue⟩ := foldl_relaxEdge_spec G M d u vs s hnd
  have hmem : ∀ v, (v ∈ vs ∧ min (d + G.cost u v) M < s.dist v) ↔ v ∈ s.improved G M d u := by
    intro v
    rw [mem_improved, hout, List.mem_toFinset]
  have hval : (s.improved G M d u).val
      = (vs.filter fun v => decide (min (d + G.cost u v) M < s.dist v) : List V) := by
    show Multiset.filter _ (G.out u).val = _
    rw [hout, List.toFinset_val, List.dedup_eq_self.mpr hnd]
    rfl
  cases hs : vs.foldl (relaxEdge G M d u) s with
  | mk dist prev queue =>
    rw [hs] at hdist hprev hqueue
    unfold relax
    congr 1
    · funext v
      rw [← if_congr (hmem v) rfl rfl]
      exact hdist v
    · funext v
      rw [← if_congr (hmem v) rfl rfl]
      exact hprev v
    · rw [hval]
      exact hqueue

/-! ## The invariant -/

/-- What every step keeps. `tight` is the heart: a vertex either still waits in
the queue at its present label, or no edge out of it can improve anything. -/
structure Inv (G : CostGraph V) (M : Nat) (src : V) (s : Labels V) : Prop where
  src_zero : s.dist src = 0
  src_prev : s.prev src = none
  le_cap : ∀ v, s.dist v ≤ M
  queue_ge : ∀ e ∈ s.queue, s.dist e.2 ≤ e.1
  sound : ∀ v, s.dist v < M → G.Walk src v (s.dist v)
  tight : ∀ u, (s.dist u, u) ∈ s.queue ∨
    ∀ v ∈ G.out u, s.dist v ≤ min (s.dist u + G.cost u v) M
  back : ∀ v u, s.prev v = some u →
    v ∈ G.out u ∧ s.dist u + G.cost u v ≤ s.dist v ∧ s.dist v < M
  chain : ∀ v, s.dist v < M → ∃ n, Chain s.prev src n v

/-- Taking a stale entry out changes no label, and the entry was not the one
`tight` needs. -/
theorem Inv.drop_stale {G : CostGraph V} {M : Nat} {src : V} {s : Labels V} {e : Nat × V}
    (h : Inv G M src s) (hst : s.dist e.2 < e.1) : Inv G M src (s.drop e) where
  src_zero := h.src_zero
  src_prev := h.src_prev
  le_cap := h.le_cap
  queue_ge := fun x hx => h.queue_ge x (Multiset.mem_of_mem_erase hx)
  sound := h.sound
  tight := by
    intro u
    rcases h.tight u with hq | hv
    · refine Or.inl ((Multiset.mem_erase_of_ne ?_).mpr hq)
      intro he
      rw [← he] at hst
      exact Nat.lt_irrefl _ hst
    · exact Or.inr hv
  back := h.back
  chain := h.chain

/-- An improved vertex has a finite new label, the sum of the label of `u` and
the edge, and its old label was above that of `u`. -/
theorem Inv.improved_spec {G : CostGraph V} {M : Nat} {src : V} {s : Labels V} {u v : V}
    (h : Inv G M src s) (hv : v ∈ s.improved G M (s.dist u) u) :
    v ∈ G.out u ∧ (s.relax G M (s.dist u) u).dist v = s.dist u + G.cost u v ∧
      s.dist u + G.cost u v < M ∧ s.dist u < s.dist v := by
  obtain ⟨hout, hlt⟩ := mem_improved.mp hv
  have hcap := h.le_cap v
  refine ⟨hout, ?_, by omega, by omega⟩
  rw [relax_dist_of_mem hv]
  omega

/-- No label is lowered from the vertex itself. -/
theorem Inv.not_improved_self {G : CostGraph V} {M : Nat} {src : V} {s : Labels V} {u : V}
    (h : Inv G M src s) : u ∉ s.improved G M (s.dist u) u := fun hmem =>
  Nat.lt_irrefl _ (h.improved_spec hmem).2.2.2

/-- A new label is the cost of a walk whose last edge leaves `u`. -/
theorem Inv.relax_sound {G : CostGraph V} {M : Nat} {src : V} {s : Labels V} {u v : V}
    (h : Inv G M src s) (hv : (s.relax G M (s.dist u) u).dist v < M) :
    G.Walk src v ((s.relax G M (s.dist u) u).dist v) := by
  by_cases hmem : v ∈ s.improved G M (s.dist u) u
  · obtain ⟨hout, hd, hlt, -⟩ := h.improved_spec hmem
    rw [hd]
    exact Walk.snoc (h.sound u (by omega)) hout
  · rw [relax_dist_of_not_mem hmem] at hv ⊢
    exact h.sound v hv

/-- A predecessor is the start of an edge that accounts for the label. -/
theorem Inv.relax_back {G : CostGraph V} {M : Nat} {src : V} {s : Labels V} {u v w : V}
    (h : Inv G M src s) (hvw : (s.relax G M (s.dist u) u).prev v = some w) :
    v ∈ G.out w ∧ (s.relax G M (s.dist u) u).dist w + G.cost w v
        ≤ (s.relax G M (s.dist u) u).dist v ∧
      (s.relax G M (s.dist u) u).dist v < M := by
  by_cases hmem : v ∈ s.improved G M (s.dist u) u
  · rw [relax_prev_of_mem hmem] at hvw
    obtain rfl := Option.some.inj hvw
    obtain ⟨hout, hd, hlt, -⟩ := h.improved_spec hmem
    rw [relax_dist_of_not_mem h.not_improved_self, hd]
    exact ⟨hout, Nat.le_refl _, hlt⟩
  · rw [relax_prev_of_not_mem hmem] at hvw
    obtain ⟨hout, hsum, hlt⟩ := h.back v w hvw
    have hle : (s.relax G M (s.dist u) u).dist w ≤ s.dist w := relax_dist_le w
    rw [relax_dist_of_not_mem hmem]
    exact ⟨hout, by omega, hlt⟩

/-- A vertex whose label is at most that of `u` keeps its chain when `u` is
expanded: nothing on that chain is improved. -/
theorem Inv.chain_below {G : CostGraph V} {M : Nat} {src : V} {s : Labels V} {u : V}
    (h : Inv G M src s) {n : Nat} {x : V} (hc : Chain s.prev src n x) (hx : s.dist x ≤ s.dist u) :
    Chain (s.relax G M (s.dist u) u).prev src n x := by
  induction hc with
  | here => exact Chain.here
  | @back x y n hp _ ih =>
    have hnot : x ∉ s.improved G M (s.dist u) u := by
      intro hmem
      have := (h.improved_spec hmem).2.2.2
      omega
    have hyx := (h.back x y hp).2.1
    exact Chain.back (by rw [relax_prev_of_not_mem hnot]; exact hp) (ih (by omega))

/-- The chain of an improved vertex goes through `u`, whose own chain is kept. -/
theorem Inv.chain_improved {G : CostGraph V} {M : Nat} {src : V} {s : Labels V} {u v : V}
    (h : Inv G M src s) (hv : v ∈ s.improved G M (s.dist u) u) :
    ∃ m, Chain (s.relax G M (s.dist u) u).prev src m v := by
  have hu : s.dist u < M := by
    have := (h.improved_spec hv).2.2
    omega
  obtain ⟨k, hk⟩ := h.chain u hu
  exact ⟨k + 1, Chain.back (relax_prev_of_mem hv) (h.chain_below hk (Nat.le_refl _))⟩

/-- Every chain survives an expansion; one that passes through an improved
vertex now continues through `u`. -/
theorem Inv.chain_relax {G : CostGraph V} {M : Nat} {src : V} {s : Labels V} {u : V}
    (h : Inv G M src s) {n : Nat} {x : V} (hc : Chain s.prev src n x) :
    ∃ m, Chain (s.relax G M (s.dist u) u).prev src m x := by
  induction hc with
  | here => exact ⟨0, Chain.here⟩
  | @back x y n hp hcy ih =>
    by_cases hmem : x ∈ s.improved G M (s.dist u) u
    · exact h.chain_improved hmem
    · obtain ⟨m, hm⟩ := ih
      exact ⟨m + 1, Chain.back (by rw [relax_prev_of_not_mem hmem]; exact hp) hm⟩

/-- After the step each vertex waits at its label, or its edges improve nothing. -/
theorem Inv.expand_tight {G : CostGraph V} {M : Nat} {src : V} {s s' : Labels V} {u : V}
    (h : Inv G M src s) (hs : s' = (s.drop (s.dist u, u)).relax G M (s.dist u) u) (x : V) :
    (s'.dist x, x) ∈ s'.queue ∨ ∀ v ∈ G.out x, s'.dist v ≤ min (s'.dist x + G.cost x v) M := by
  subst hs
  by_cases hx : x ∈ (s.drop (s.dist u, u)).improved G M (s.dist u) u
  · -- an improved vertex has just been queued at its new label
    exact Or.inl (mem_relax_queue.mpr (Or.inr ⟨hx, rfl⟩))
  · rw [relax_dist_of_not_mem hx]
    by_cases hxu : x = u
    · -- `u` itself: its edges have just been relaxed
      subst hxu
      exact Or.inr fun v hv => relax_dist_out hv
    · -- any other vertex keeps its place in the queue, or its edges stay tight
      rcases h.tight x with hmem | hok
      · refine Or.inl (mem_relax_queue.mpr (Or.inl ((Multiset.mem_erase_of_ne ?_).mpr hmem)))
        intro he
        exact hxu (Prod.mk.inj he).2
      · exact Or.inr fun v hv => Nat.le_trans (relax_dist_le v) (hok v hv)

/-- **Expanding a vertex keeps the invariant.** -/
theorem Inv.expand {G : CostGraph V} {M : Nat} {src : V} {s : Labels V} {u : V}
    (h : Inv G M src s) :
    Inv G M src ((s.drop (s.dist u, u)).relax G M (s.dist u) u) := by
  -- the labels after the step do not depend on the queue
  have hdist : ((s.drop (s.dist u, u)).relax G M (s.dist u) u).dist
      = (s.relax G M (s.dist u) u).dist := rfl
  have hprev : ((s.drop (s.dist u, u)).relax G M (s.dist u) u).prev
      = (s.relax G M (s.dist u) u).prev := rfl
  have hle : ∀ v, (s.relax G M (s.dist u) u).dist v ≤ s.dist v := fun v => relax_dist_le v
  have hsrc : src ∉ s.improved G M (s.dist u) u := by
    intro hmem
    have := (h.improved_spec hmem).2.2.2
    rw [h.src_zero] at this
    omega
  refine ⟨?_, ?_, ?_, ?_, ?_, ?_, ?_, ?_⟩
  · rw [hdist, relax_dist_of_not_mem hsrc]
    exact h.src_zero
  · rw [hprev, relax_prev_of_not_mem hsrc]
    exact h.src_prev
  · intro v
    exact Nat.le_trans (hle v) (h.le_cap v)
  · intro e he
    rcases mem_relax_queue.mp he with hold | ⟨-, heq⟩
    · exact Nat.le_trans (hle e.2) (h.queue_ge e (Multiset.mem_of_mem_erase hold))
    · exact Nat.le_of_eq heq.symm
  · intro v hv
    exact h.relax_sound hv
  · exact h.expand_tight rfl
  · intro v w hvw
    exact h.relax_back hvw
  · intro v hv
    rw [hdist] at hv
    rw [hprev]
    by_cases hmem : v ∈ s.improved G M (s.dist u) u
    · exact h.chain_improved hmem
    · rw [relax_dist_of_not_mem hmem] at hv
      obtain ⟨n, hn⟩ := h.chain v hv
      exact h.chain_relax hn

/-- Every step keeps the invariant, whichever entry it takes. -/
theorem Inv.take {G : CostGraph V} {M : Nat} {src : V} {s : Labels V} {e : Nat × V}
    (h : Inv G M src s) (he : e ∈ s.queue) : Inv G M src (s.take G M e) := by
  unfold Labels.take
  by_cases hst : s.dist e.2 < e.1
  · rw [if_pos hst]
    exact h.drop_stale hst
  · rw [if_neg hst]
    have heq : e = (s.dist e.2, e.2) :=
      Prod.ext (Nat.le_antisymm (Nat.le_of_not_lt hst) (h.queue_ge e he)) rfl
    rw [heq]
    exact h.expand

/-- The initial labels: the source at zero, every other vertex at the cap, no
predecessors; in the queue the source, and the vertices of `S` at the cap. -/
def init (M : Nat) (src : V) (S : Finset V) : Labels V where
  dist v := if v = src then 0 else M
  prev _ := none
  queue := (0, src) ::ₘ S.val.map fun v => (M, v)

theorem init_dist (M : Nat) (src : V) (S : Finset V) (v : V) :
    (init M src S).dist v = if v = src then 0 else M := rfl

theorem init_dist_le (M : Nat) (src : V) (S : Finset V) (v : V) : (init M src S).dist v ≤ M := by
  rw [init_dist]
  split <;> omega

theorem inv_init (G : CostGraph V) (M : Nat) (src : V) (S : Finset V) :
    Inv G M src (init M src S) where
  src_zero := if_pos rfl
  src_prev := rfl
  le_cap := init_dist_le M src S
  queue_ge := by
    intro e he
    rcases Multiset.mem_cons.mp he with rfl | he'
    · exact Nat.le_of_eq (if_pos rfl)
    · obtain ⟨v, -, rfl⟩ := Multiset.mem_map.mp he'
      exact init_dist_le M src S v
  sound := by
    intro v hv
    rw [init_dist] at hv ⊢
    split at hv
    next heq => rw [if_pos heq, heq]; exact Walk.nil src
    next => exact absurd hv (Nat.lt_irrefl _)
  tight := by
    intro u
    by_cases hu : u = src
    · subst hu
      rw [init_dist, if_pos rfl]
      exact Or.inl (Multiset.mem_cons_self ..)
    · -- at the cap no edge can improve anything
      refine Or.inr fun v _ => ?_
      rw [init_dist M src S u, if_neg hu, Nat.min_eq_right (Nat.le_add_right _ _)]
      exact init_dist_le M src S v
  back := fun _ _ h => absurd h (Option.some_ne_none _).symm
  chain := by
    intro v hv
    rw [init_dist] at hv
    split at hv
    next heq => rw [heq]; exact ⟨0, Chain.here⟩
    next => exact absurd hv (Nat.lt_irrefl _)

/-! ## The labels when the queue is empty -/

omit [DecidableEq V] in
/-- With an empty queue no walk is cheaper than the label of its end, up to the
cap. -/
theorem Inv.dist_le {G : CostGraph V} {M : Nat} {src : V} {s : Labels V} (h : Inv G M src s)
    (hq : s.queue = 0) {v : V} {c : Nat} (hw : G.Walk src v c) : s.dist v ≤ min c M := by
  induction hw with
  | nil => rw [h.src_zero]; exact Nat.zero_le _
  | @snoc b v c _ hv ih =>
    rcases h.tight b with hmem | hok
    · rw [hq] at hmem
      exact absurd hmem (Multiset.notMem_zero _)
    · have := hok v hv
      omega

omit [DecidableEq V] in
/-- A vertex is labelled below the cap exactly when some walk is cheaper than
the cap. -/
theorem Inv.dist_lt_iff {G : CostGraph V} {M : Nat} {src : V} {s : Labels V} (h : Inv G M src s)
    (hq : s.queue = 0) {v : V} : s.dist v < M ↔ ∃ c, G.Walk src v c ∧ c < M := by
  refine ⟨fun hv => ⟨s.dist v, h.sound v hv, hv⟩, fun ⟨c, hw, hc⟩ => ?_⟩
  have := h.dist_le hq hw
  omega

omit [DecidableEq V] in
/-- **The labels are the shortest distances.** -/
theorem Inv.isLeast {G : CostGraph V} {M : Nat} {src : V} {s : Labels V} (h : Inv G M src s)
    (hq : s.queue = 0) {v : V} (hv : s.dist v < M) : IsLeast {c | G.Walk src v c} (s.dist v) := by
  refine ⟨h.sound v hv, fun c hw => ?_⟩
  have := h.dist_le hq hw
  omega

omit [DecidableEq V] in
/-- A predecessor is the last vertex of a shortest walk. -/
theorem Inv.prev_tight {G : CostGraph V} {M : Nat} {src : V} {s : Labels V} (h : Inv G M src s)
    (hq : s.queue = 0) {v u : V} (hp : s.prev v = some u) :
    v ∈ G.out u ∧ s.dist v = s.dist u + G.cost u v := by
  obtain ⟨hout, hle, hlt⟩ := h.back v u hp
  have hup := h.dist_le hq (Walk.snoc (h.sound u (by omega)) hout)
  exact ⟨hout, by omega⟩

omit [DecidableEq V] in
/-- The first hop of a chain starts a shortest walk. -/
theorem Inv.firstHop_walk {G : CostGraph V} {M : Nat} {src : V} {s : Labels V}
    (h : Inv G M src s) (hq : s.queue = 0) {w v : V} {n : Nat} (hf : FirstHop s.prev src w n v) :
    w ∈ G.out src ∧ ∃ c, G.Walk w v c ∧ s.dist v = G.cost src w + c := by
  induction hf with
  | last hp =>
    obtain ⟨hout, hd⟩ := h.prev_tight hq hp
    rw [h.src_zero] at hd
    exact ⟨hout, 0, Walk.nil w, by omega⟩
  | @back v u n hp _ _ ih =>
    obtain ⟨hout, c, hw, hd⟩ := ih
    obtain ⟨hv, hdv⟩ := h.prev_tight hq hp
    exact ⟨hout, c + G.cost u v, Walk.snoc hw hv, by omega⟩

/-! ## Termination -/

/-- Entries in the queue plus the labels of the vertices in `S`. -/
def potential (S : Finset V) (s : Labels V) : Nat := s.queue.card + ∑ v ∈ S, s.dist v

/-- Relaxing adds an entry only where it lowers a label. -/
theorem potential_relax_le {G : CostGraph V} {M d : Nat} {S : Finset V} {s : Labels V} {u : V}
    (hS : G.out u ⊆ S) : (s.relax G M d u).potential S ≤ s.potential S := by
  have hsub : s.improved G M d u ⊆ S := fun v hv => hS (mem_improved.mp hv).1
  have hcard : (s.relax G M d u).queue.card = s.queue.card + (s.improved G M d u).card := by
    show Multiset.card (s.queue + _) = _
    rw [Multiset.card_add, Multiset.card_map]
    rfl
  have hsum : (s.improved G M d u).card + ∑ v ∈ S, (s.relax G M d u).dist v
      ≤ ∑ v ∈ S, s.dist v := by
    have hones : (s.improved G M d u).card
        = ∑ v ∈ S, if v ∈ s.improved G M d u then 1 else 0 := by
      rw [Finset.sum_ite_mem, Finset.inter_eq_right.mpr hsub, Finset.card_eq_sum_ones]
    rw [hones, ← Finset.sum_add_distrib]
    refine Finset.sum_le_sum fun v _ => ?_
    by_cases hv : v ∈ s.improved G M d u
    · rw [if_pos hv, relax_dist_of_mem hv]
      have := (mem_improved.mp hv).2
      omega
    · rw [if_neg hv, relax_dist_of_not_mem hv]
      omega
  rw [potential, potential, hcard]
  omega

/-- Every step lowers the potential. -/
theorem potential_take_lt {G : CostGraph V} {M : Nat} {S : Finset V} {s : Labels V} {e : Nat × V}
    (hS : ∀ u, G.out u ⊆ S) (he : e ∈ s.queue) : (s.take G M e).potential S < s.potential S := by
  have hdrop : (s.drop e).potential S < s.potential S := by
    have := Multiset.card_erase_lt_of_mem he
    show (s.queue.erase e).card + ∑ v ∈ S, s.dist v < s.queue.card + ∑ v ∈ S, s.dist v
    omega
  unfold take
  split
  · exact hdrop
  · exact Nat.lt_of_le_of_lt (potential_relax_le (hS e.2)) hdrop

theorem potential_init_le (M : Nat) (src : V) (S T : Finset V) :
    (init M src S).potential T ≤ S.card + 1 + T.card * M := by
  have hqueue : (init M src S).queue.card = S.card + 1 := by
    show Multiset.card ((0, src) ::ₘ S.val.map fun v => (M, v)) = _
    rw [Multiset.card_cons, Multiset.card_map]
    rfl
  have hsum := Finset.sum_le_card_nsmul T (init M src S).dist M fun v _ => init_dist_le M src S v
  rw [potential, hqueue]
  exact Nat.add_le_add_left hsum _

/-! ## Determinism -/

/-- A step that takes a least entry. -/
def MinStep (G : CostGraph V) (M : Nat) (le : Nat × V → Nat × V → Prop) (s s' : Labels V) : Prop :=
  ∃ e ∈ s.queue, (∀ e' ∈ s.queue, le e e') ∧ s' = s.take G M e

/-- A run of least-entry steps until the queue is empty. -/
def MinRun (G : CostGraph V) (M : Nat) (le : Nat × V → Nat × V → Prop) (s s' : Labels V) : Prop :=
  Relation.ReflTransGen (MinStep G M le) s s' ∧ s'.queue = 0

/-- Steps keep the invariant. -/
theorem Inv.minSteps {G : CostGraph V} {M : Nat} {le : Nat × V → Nat × V → Prop} {src : V}
    {s s' : Labels V} (hi : Inv G M src s)
    (hr : Relation.ReflTransGen (MinStep G M le) s s') : Inv G M src s' := by
  induction hr with
  | refl => exact hi
  | tail _ hstep ih =>
    obtain ⟨e, he, -, rfl⟩ := hstep
    exact ih.take he

/-- A run keeps the invariant. -/
theorem MinRun.inv {G : CostGraph V} {M : Nat} {le : Nat × V → Nat × V → Prop} {src : V}
    {s s' : Labels V} (h : MinRun G M le s s') (hi : Inv G M src s) : Inv G M src s' :=
  hi.minSteps h.1

/-- With an antisymmetric order a run has one outcome. -/
theorem MinRun.unique {G : CostGraph V} {M : Nat} {le : Nat × V → Nat × V → Prop}
    (hle : ∀ a b, le a b → le b a → a = b) {s s₁ s₂ : Labels V}
    (h₁ : MinRun G M le s s₁) (h₂ : MinRun G M le s s₂) : s₁ = s₂ := by
  obtain ⟨hr₁, hq₁⟩ := h₁
  obtain ⟨hr₂, hq₂⟩ := h₂
  induction hr₁ using Relation.ReflTransGen.head_induction_on with
  | refl =>
    rcases Relation.ReflTransGen.cases_head hr₂ with heq | ⟨_, ⟨e, he, -⟩, -⟩
    · exact heq
    · rw [hq₁] at he
      exact absurd he (Multiset.notMem_zero e)
  | head hstep _ ih =>
    obtain ⟨e, he, hmin, rfl⟩ := hstep
    rcases Relation.ReflTransGen.cases_head hr₂ with heq | ⟨_, ⟨e', he', hmin', rfl⟩, hrest⟩
    · rw [heq, hq₂] at he
      exact absurd he (Multiset.notMem_zero e)
    · obtain rfl := hle e e' (hmin e' he') (hmin' e he)
      exact ih hrest

end Labels

end MeshCore.Lib
