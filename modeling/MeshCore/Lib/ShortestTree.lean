import MeshCore.Lib.LabelSearch

/-!
# The tree a least-entry search builds

The labels of a search say how far every vertex is from the source; which of the
shortest walks its predecessors pick depends on the order in which the vertices
are settled. That order is described here without the search. From the vertices
settled so far, `Reached` lists those a shortest walk leads to in one more edge,
and the least of them is settled next (`SettlingOrder`). Each vertex then hangs
below the first settled vertex with an edge that ends a shortest walk to it
(`treeParent`).

With zero-cost edges distance alone does not determine the order: a vertex becomes
available only when a vertex before it is settled. It is still unique
(`SettlesAll.unique`), as two settling orders can only differ in length.

`Explored` relates a state of the search to the order in which its entries were
expanded, and `Explored.step` keeps it along least-entry steps. At the end the
vertices below the cap are all settled, and their predecessors are those of the
tree (`MinRun.settlesAll`).
-/

namespace MeshCore.Lib

namespace CostGraph

variable {V : Type}

/-- The least cost of the walks from `a` to `b`. -/
def Dist (G : CostGraph V) (a b : V) (c : Nat) : Prop := IsLeast {m | G.Walk a b m} c

theorem Dist.unique {G : CostGraph V} {a b : V} {c d : Nat} (hc : G.Dist a b c)
    (hd : G.Dist a b d) : c = d :=
  IsLeast.unique hc hd

/-- The edge from `u` to `v` ends a shortest walk. -/
def Tight (G : CostGraph V) (src u v : V) : Prop :=
  v ∈ G.out u ∧ ∃ c, G.Dist src u c ∧ G.Dist src v (c + G.cost u v)

/-- `v`, at distance `c`, can be settled after the vertices of `order`. -/
def Reached (G : CostGraph V) (M : Nat) (src : V) (order : List V) (v : V) (c : Nat) : Prop :=
  v ∉ order ∧ G.Dist src v c ∧ c < M ∧ (v = src ∨ ∃ u ∈ order, G.Tight src u v)

/-- The vertices in the order in which they are settled: each time the least one
that is reached. -/
inductive SettlingOrder (G : CostGraph V) (M : Nat) (le : Nat × V → Nat × V → Prop) (src : V) :
    List V → Prop where
  | nil : SettlingOrder G M le src []
  | next {order : List V} {v : V} {c : Nat} (h : SettlingOrder G M le src order)
      (hv : G.Reached M src order v c)
      (hleast : ∀ w d, G.Reached M src order w d → le (c, v) (d, w)) :
      SettlingOrder G M le src (order ++ [v])

/-- A settling order that cannot go on. -/
structure SettlesAll (G : CostGraph V) (M : Nat) (le : Nat × V → Nat × V → Prop) (src : V)
    (order : List V) : Prop where
  settling : G.SettlingOrder M le src order
  complete : ∀ v c, ¬ G.Reached M src order v c

open Classical in
/-- The vertex `v` hangs below: the first settled one with an edge that ends a
shortest walk to `v`. -/
noncomputable def treeParent (G : CostGraph V) (src : V) (order : List V) (v : V) : Option V :=
  if v = src then none else order.find? fun u => decide (G.Tight src u v)

theorem treeParent_src (G : CostGraph V) (src : V) (order : List V) :
    G.treeParent src order src = none := if_pos rfl

/-- The parent is the vertex with a tight edge that no other such vertex precedes. -/
theorem treeParent_eq_some {G : CostGraph V} {src v u : V} {before after : List V} (hv : v ≠ src)
    (hu : G.Tight src u v) (hbefore : ∀ w ∈ before, ¬ G.Tight src w v) :
    G.treeParent src (before ++ u :: after) v = some u := by
  unfold treeParent
  rw [if_neg hv, List.find?_eq_some_iff_append]
  exact ⟨by simpa using hu, before, after, rfl, fun w hw => by simpa using hbefore w hw⟩

/-! ## The order is unique -/

section Order

variable {G : CostGraph V} {M : Nat} {le : Nat × V → Nat × V → Prop} {src : V}

/-- The vertex after a part of a settling order was the least one reached. -/
theorem SettlingOrder.split {before after : List V} {w : V}
    (h : G.SettlingOrder M le src (before ++ w :: after)) :
    ∃ d, G.Reached M src before w d ∧ ∀ v c, G.Reached M src before v c → le (d, w) (c, v) := by
  generalize hl : before ++ w :: after = l at h
  induction h generalizing after with
  | nil => exact absurd hl (by simp)
  | @next order v c _ hv hleast ih =>
    rcases List.eq_nil_or_concat after with rfl | ⟨rest, x, rfl⟩
    · -- `w` is the last vertex settled
      obtain ⟨rfl, hw⟩ := List.append_inj' hl rfl
      obtain rfl := List.singleton_inj.mp hw
      exact ⟨c, hv, hleast⟩
    · rw [List.concat_eq_append, ← List.cons_append, ← List.append_assoc] at hl
      exact ih (List.append_inj' hl rfl).1

/-- Two settling orders agree as far as both go. -/
theorem SettlingOrder.prefix_or (hle : ∀ a b, le a b → le b a → a = b) {l₁ l₂ : List V}
    (h₁ : G.SettlingOrder M le src l₁) (h₂ : G.SettlingOrder M le src l₂) :
    l₁ <+: l₂ ∨ l₂ <+: l₁ := by
  induction h₁ with
  | nil => exact Or.inl (List.nil_prefix)
  | @next order v c _ hv hleast ih =>
    rcases ih with ⟨rest, rfl⟩ | hpre
    · cases rest with
      | nil => exact Or.inr (by rw [List.append_nil]; exact List.prefix_append ..)
      | cons w rest =>
        -- both orders settle the least vertex reached next
        obtain ⟨d, hw, hwleast⟩ := h₂.split
        have heq := hle _ _ (hleast w d hw) (hwleast v c hv)
        obtain rfl := (Prod.mk.inj heq).2
        exact Or.inl ⟨rest, by rw [List.append_assoc, List.singleton_append]⟩
    · exact Or.inr (hpre.trans (List.prefix_append ..))

/-- Every settling order begins a complete one. -/
theorem SettlingOrder.prefix_settlesAll (hle : ∀ a b, le a b → le b a → a = b) {l₁ l₂ : List V}
    (h₁ : G.SettlingOrder M le src l₁) (h₂ : G.SettlesAll M le src l₂) : l₁ <+: l₂ := by
  rcases h₁.prefix_or hle h₂.settling with h | ⟨rest, rfl⟩
  · exact h
  · cases rest with
    | nil => rw [List.append_nil]
    | cons w rest =>
      obtain ⟨d, hw, -⟩ := h₁.split
      exact absurd hw (h₂.complete w d)

/-- **There is one complete settling order.** -/
theorem SettlesAll.unique (hle : ∀ a b, le a b → le b a → a = b) {l₁ l₂ : List V}
    (h₁ : G.SettlesAll M le src l₁) (h₂ : G.SettlesAll M le src l₂) : l₁ = l₂ :=
  (h₁.settling.prefix_settlesAll hle h₂).eq_of_length_le
    (h₂.settling.prefix_settlesAll hle h₁).length_le

end Order

end CostGraph

/-- Two predecessor maps that agree on the vertices of a chain have the same chain. -/
theorem Chain.congr {V : Type} {prev prev' : V → Option V} {src : V} {S : V → Prop}
    (hprev : ∀ v, S v → prev v = prev' v) (hS : ∀ v u, S v → prev v = some u → S u)
    {n : Nat} {v : V} (h : Chain prev src n v) (hv : S v) : Chain prev' src n v := by
  induction h with
  | here => exact Chain.here
  | @back v u n hp _ ih => exact Chain.back (hprev v hv ▸ hp) (ih (hS v u hv hp))

open CostGraph

namespace Labels

variable {V : Type} {G : CostGraph V} {M : Nat} {le : Nat × V → Nat × V → Prop} {src : V}

/-- What holds between a state and the order in which its vertices were expanded:
the labels of these are final and their edges relaxed, a predecessor was the first
of them with its edge, and the others below the cap wait in the queue. -/
structure Explored (G : CostGraph V) (M : Nat) (le : Nat × V → Nat × V → Prop) (src : V)
    (s : Labels V) (order : List V) : Prop where
  settling : G.SettlingOrder M le src order
  settled_lt : ∀ u ∈ order, s.dist u < M
  final : ∀ u ∈ order, G.Dist src u (s.dist u)
  relaxed : ∀ u ∈ order, ∀ v ∈ G.out u, s.dist v ≤ min (s.dist u + G.cost u v) M
  parent : ∀ v u, s.prev v = some u → ∃ before after, order = before ++ u :: after ∧
    v ∈ G.out u ∧ s.dist v = s.dist u + G.cost u v ∧
    ∀ w ∈ before, v ∈ G.out w → s.dist v < s.dist w + G.cost w v
  queued : ∀ v, s.dist v < M → v ∈ order ∨ (s.dist v, v) ∈ s.queue

variable {s : Labels V} {order : List V}

/-- A walk ends at a settled vertex, no cheaper than its label, or passes one that
waits with a label no greater than the cost of the walk. -/
theorem Explored.frontier (h : Explored G M le src s order) (hi : Inv G M src s) {v : V} {c : Nat}
    (hw : G.Walk src v c) : (v ∈ order ∧ s.dist v ≤ c) ∨ ∃ z, z ∉ order ∧ s.dist z ≤ c := by
  induction hw with
  | nil =>
    by_cases hsrc : src ∈ order
    · exact Or.inl ⟨hsrc, Nat.le_of_eq hi.src_zero⟩
    · exact Or.inr ⟨src, hsrc, Nat.le_of_eq hi.src_zero⟩
  | @snoc b v c _ hv ih =>
    rcases ih with ⟨hb, hle⟩ | ⟨z, hz, hle⟩
    · have hrel := h.relaxed b hb v hv
      by_cases hmem : v ∈ order
      · exact Or.inl ⟨hmem, by omega⟩
      · exact Or.inr ⟨v, hmem, by omega⟩
    · exact Or.inr ⟨z, hz, by omega⟩

/-- A vertex that is reached waits at its distance. -/
theorem Explored.reached_queued (h : Explored G M le src s order) (hi : Inv G M src s) {v : V}
    {c : Nat} (hv : G.Reached M src order v c) : (c, v) ∈ s.queue := by
  obtain ⟨hnot, hdist, hlt, hlast⟩ := hv
  have hle : s.dist v ≤ c := by
    rcases hlast with rfl | ⟨u, hu, hout, d, hd, hd'⟩
    · rw [hi.src_zero]
      exact Nat.zero_le _
    · have hrel := h.relaxed u hu v hout
      rw [(h.final u hu).unique hd, ← hdist.unique hd'] at hrel
      omega
  have hge := hdist.2 (hi.sound v (by omega))
  have heq : s.dist v = c := by omega
  rcases h.queued v (by omega) with hmem | hmem
  · exact absurd hmem hnot
  · rwa [heq] at hmem

/-- The least entry of the queue, when it is fresh and of a new vertex, is at its
distance. -/
theorem Explored.dist_least (h : Explored G M le src s order) (hi : Inv G M src s)
    (hle : ∀ a b, le a b → a.1 ≤ b.1) {u : V} (hu : u ∉ order) (hlt : s.dist u < M)
    (hleast : ∀ e ∈ s.queue, le (s.dist u, u) e) : G.Dist src u (s.dist u) := by
  refine ⟨hi.sound u hlt, fun c hw => ?_⟩
  rcases h.frontier hi hw with ⟨hmem, -⟩ | ⟨z, hz, hzc⟩
  · exact absurd hmem hu
  · by_cases hzM : s.dist z < M
    · have hzq := (h.queued z hzM).resolve_left hz
      exact Nat.le_trans (hle _ _ (hleast _ hzq)) hzc
    · omega

/-- Such a vertex is the next one to be settled. -/
theorem Explored.reached_least (h : Explored G M le src s order) (hi : Inv G M src s)
    (hle : ∀ a b, le a b → a.1 ≤ b.1) {u : V} (hu : u ∉ order) (hlt : s.dist u < M)
    (hleast : ∀ e ∈ s.queue, le (s.dist u, u) e) : G.Reached M src order u (s.dist u) := by
  have hdist := h.dist_least hi hle hu hlt hleast
  refine ⟨hu, hdist, hlt, ?_⟩
  by_cases hsrc : u = src
  · exact Or.inl hsrc
  · -- a label below the cap has a predecessor, which is settled
    obtain ⟨n, hn⟩ := hi.chain u hlt
    cases hn with
    | here => exact absurd rfl hsrc
    | @back _ p _ hp _ =>
      obtain ⟨before, after, rfl, hout, hsum, -⟩ := h.parent u p hp
      have hmem : p ∈ before ++ p :: after :=
        List.mem_append_right _ (List.mem_cons_self ..)
      exact Or.inr ⟨p, hmem, hout, s.dist p, h.final p hmem, hsum ▸ hdist⟩

/-! ## The steps -/

variable [DecidableEq V]

theorem explored_init (G : CostGraph V) (le : Nat × V → Nat × V → Prop) (src : V) (S : Finset V) :
    Explored G M le src (init M src S) [] where
  settling := .nil
  settled_lt := fun _ h => absurd h (by simp)
  final := fun _ h => absurd h (by simp)
  relaxed := fun _ h => absurd h (by simp)
  parent := fun _ _ h => absurd h (Option.some_ne_none _).symm
  queued := by
    intro v hv
    rw [init_dist] at hv ⊢
    split at hv
    next heq =>
      rw [if_pos heq, heq]
      exact Or.inr (Multiset.mem_cons_self ..)
    next => exact absurd hv (Nat.lt_irrefl _)

/-- A step that lowers no label keeps the order, when the entry it takes was not
one that waits. -/
theorem Explored.drop (h : Explored G M le src s order) {e : Nat × V}
    (he : e.1 = s.dist e.2 → s.dist e.2 < M → e.2 ∈ order) :
    Explored G M le src (s.drop e) order where
  settling := h.settling
  settled_lt := h.settled_lt
  final := h.final
  relaxed := h.relaxed
  parent := h.parent
  queued := by
    intro v hv
    rcases h.queued v hv with hmem | hmem
    · exact Or.inl hmem
    · by_cases heq : (s.dist v, v) = e
      · subst heq
        exact Or.inl (he rfl hv)
      · exact Or.inr ((Multiset.mem_erase_of_ne heq).mpr hmem)

omit [DecidableEq V] in
/-- No label is lowered from a settled vertex, nor from one at the cap. -/
theorem Explored.improved_eq_empty (h : Explored G M le src s order) (hi : Inv G M src s) {u : V}
    (hu : s.dist u < M → u ∈ order) : s.improved G M (s.dist u) u = ∅ := by
  refine Finset.eq_empty_of_forall_notMem fun v hv => ?_
  obtain ⟨hout, hlt⟩ := mem_improved.mp hv
  have hcap := hi.le_cap v
  by_cases huM : s.dist u < M
  · have := h.relaxed u (hu huM) v hout
    omega
  · omega

theorem relax_of_improved_eq_empty {d : Nat} {u : V} (h : s.improved G M d u = ∅) :
    s.relax G M d u = s := by
  have hnot : ∀ v, v ∉ s.improved G M d u := fun v => h ▸ Finset.notMem_empty v
  cases hs : s with
  | mk dist prev queue =>
    subst hs
    unfold relax
    congr 1
    · exact funext fun v => if_neg (hnot v)
    · exact funext fun v => if_neg (hnot v)
    · rw [h]
      exact Multiset.add_zero _

/-- A settled vertex keeps its label when the next one is expanded. -/
theorem Explored.not_improved (h : Explored G M le src s order) (hi : Inv G M src s) {u v : V}
    (hv : v ∈ order) : v ∉ s.improved G M (s.dist u) u := by
  intro hmem
  obtain ⟨hout, -, hM, -⟩ := hi.improved_spec hmem
  obtain ⟨-, hlt⟩ := mem_improved.mp hmem
  have := (h.final v hv).2 (Walk.snoc (hi.sound u (by omega)) hout)
  omega

/-- The vertices settled so far keep their labels when `u` is expanded, and so does `u`. -/
theorem Explored.expand_dist (h : Explored G M le src s order) (hi : Inv G M src s) {u w : V}
    {e : Nat × V} (hw : w ∈ order ++ [u]) :
    ((s.drop e).relax G M (s.dist u) u).dist w = s.dist w := by
  -- the labels after the step do not depend on the queue
  refine relax_dist_of_not_mem (show w ∉ s.improved G M (s.dist u) u from ?_)
  rcases List.mem_append.mp hw with hw | hw
  · exact h.not_improved hi hw
  · obtain rfl := List.mem_singleton.mp hw
    exact hi.not_improved_self

/-- The edges of `u` are relaxed after the step, those of the others as before. -/
theorem Explored.expand_relaxed (h : Explored G M le src s order) {u w : V} {e : Nat × V}
    (hw : w ∈ order ++ [u]) {v : V} (hv : v ∈ G.out w) :
    ((s.drop e).relax G M (s.dist u) u).dist v ≤ min (s.dist w + G.cost w v) M := by
  rcases List.mem_append.mp hw with hw | hw
  · exact Nat.le_trans (relax_dist_le v) (h.relaxed w hw v hv)
  · obtain rfl := List.mem_singleton.mp hw
    exact relax_dist_out hv

/-- After the step a predecessor still is the first vertex with its edge. -/
theorem Explored.expand_parent (h : Explored G M le src s order) (hi : Inv G M src s) {u v p : V}
    {e : Nat × V} {s' : Labels V} (hs : s' = (s.drop e).relax G M (s.dist u) u)
    (hp : s'.prev v = some p) :
    ∃ before after, order ++ [u] = before ++ p :: after ∧
      v ∈ G.out p ∧ s'.dist v = s'.dist p + G.cost p v ∧
      ∀ w ∈ before, v ∈ G.out w → s'.dist v < s'.dist w + G.cost w v := by
  have hkeep : ∀ w ∈ order ++ [u], s'.dist w = s.dist w := fun w hw => by
    rw [hs]
    exact h.expand_dist hi hw
  have himp : (s.drop e).improved G M (s.dist u) u = s.improved G M (s.dist u) u := rfl
  by_cases hmem : v ∈ s.improved G M (s.dist u) u
  · -- a new predecessor is the vertex just settled
    rw [hs, relax_prev_of_mem (himp ▸ hmem)] at hp
    obtain rfl := Option.some.inj hp
    obtain ⟨hout, hsum, hM, -⟩ := hi.improved_spec hmem
    have hnew : s'.dist v = s.dist u + G.cost u v := by
      rw [hs]
      exact hsum
    refine ⟨order, [], rfl, hout, ?_, fun w hw hwv => ?_⟩
    · rw [hkeep u (List.mem_append_right _ (List.mem_singleton_self u)), hnew]
    · have hlow := (mem_improved.mp hmem).2
      have hrel := h.relaxed w hw v hwv
      rw [hkeep w (List.mem_append_left _ hw), hnew]
      omega
  · -- an old one keeps its place
    rw [hs, relax_prev_of_not_mem (himp ▸ hmem)] at hp
    obtain ⟨before, after, horder, hout, hsum, hfirst⟩ := h.parent v p hp
    have hdv : s'.dist v = s.dist v := by
      rw [hs]
      exact relax_dist_of_not_mem (himp ▸ hmem)
    have hin : ∀ w ∈ before ++ [p], w ∈ order ++ [u] := by
      intro w hw
      rw [horder]
      simp only [List.mem_append, List.mem_cons] at hw ⊢
      tauto
    refine ⟨before, after ++ [u], by rw [horder, List.append_assoc, List.cons_append], hout,
      ?_, fun w hw hwv => ?_⟩
    · rw [hdv, hkeep p (hin p (by simp)), hsum]
    · rw [hdv, hkeep w (hin w (by simp [hw]))]
      exact hfirst w hw hwv

/-- A vertex below the cap waits after the step, when it is not settled. -/
theorem Explored.expand_queued (h : Explored G M le src s order) {u v : V} {d : Nat}
    (hv : ((s.drop (d, u)).relax G M (s.dist u) u).dist v < M) :
    v ∈ order ++ [u] ∨ (((s.drop (d, u)).relax G M (s.dist u) u).dist v, v)
      ∈ ((s.drop (d, u)).relax G M (s.dist u) u).queue := by
  by_cases hmem : v ∈ (s.drop (d, u)).improved G M (s.dist u) u
  · exact Or.inr (mem_relax_queue.mpr (Or.inr ⟨hmem, rfl⟩))
  · rw [relax_dist_of_not_mem hmem] at hv ⊢
    rcases h.queued v hv with hold | hold
    · exact Or.inl (List.mem_append_left _ hold)
    · by_cases hvu : v = u
      · exact Or.inl (hvu ▸ List.mem_append_right _ (List.mem_singleton_self v))
      · refine Or.inr (mem_relax_queue.mpr (Or.inl ((Multiset.mem_erase_of_ne ?_).mpr hold)))
        exact fun he => hvu (Prod.mk.inj he).2

/-- **Expanding the next vertex settles it.** -/
theorem Explored.expand (h : Explored G M le src s order) (hi : Inv G M src s)
    (hle : ∀ a b, le a b → a.1 ≤ b.1) {u : V} (hu : u ∉ order) (hlt : s.dist u < M)
    (hleast : ∀ e ∈ s.queue, le (s.dist u, u) e) :
    Explored G M le src ((s.drop (s.dist u, u)).relax G M (s.dist u) u) (order ++ [u]) := by
  have hreached := h.reached_least hi hle hu hlt hleast
  refine ⟨?_, ?_, ?_, ?_, ?_, ?_⟩
  · exact .next h.settling hreached fun w d hw => hleast _ (h.reached_queued hi hw)
  · intro w hw
    rw [h.expand_dist hi hw]
    rcases List.mem_append.mp hw with hw | hw
    · exact h.settled_lt w hw
    · exact List.mem_singleton.mp hw ▸ hlt
  · intro w hw
    rw [h.expand_dist hi hw]
    rcases List.mem_append.mp hw with hw | hw
    · exact h.final w hw
    · exact List.mem_singleton.mp hw ▸ hreached.2.1
  · intro w hw v hv
    rw [h.expand_dist hi hw]
    exact h.expand_relaxed hw hv
  · exact fun v p hp => h.expand_parent hi rfl hp
  · exact fun v hv => h.expand_queued hv

/-- A least-entry step settles the next vertex, or changes no label. -/
theorem Explored.step (h : Explored G M le src s order) (hi : Inv G M src s)
    (hle : ∀ a b, le a b → a.1 ≤ b.1) {s' : Labels V} (hstep : MinStep G M le s s') :
    ∃ order', Explored G M le src s' order' := by
  obtain ⟨e, he, hleast, rfl⟩ := hstep
  unfold Labels.take
  by_cases hst : s.dist e.2 < e.1
  · rw [if_pos hst]
    exact ⟨order, h.drop fun heq => absurd heq (by omega)⟩
  · rw [if_neg hst]
    have heq : e.1 = s.dist e.2 := Nat.le_antisymm (Nat.le_of_not_lt hst) (hi.queue_ge e he)
    obtain ⟨d, u⟩ := e
    obtain rfl : d = s.dist u := heq
    by_cases hnew : s.dist u < M → u ∈ order
    · -- a vertex met again, or one that no walk reaches
      refine ⟨order, ?_⟩
      rw [relax_of_improved_eq_empty (show (s.drop _).improved G M (s.dist u) u = ∅ from
        h.improved_eq_empty hi hnew)]
      exact h.drop fun _ hlt => hnew hlt
    · obtain ⟨hlt, hu⟩ := Classical.not_imp.mp hnew
      exact ⟨order ++ [u], h.expand hi hle hu hlt hleast⟩

/-! ## The end -/

omit [DecidableEq V] in
/-- With an empty queue everything that can be settled is. -/
theorem Explored.settlesAll (h : Explored G M le src s order) (hi : Inv G M src s)
    (hq : s.queue = 0) : G.SettlesAll M le src order where
  settling := h.settling
  complete := by
    intro v c hv
    have hmem := h.reached_queued hi hv
    rw [hq] at hmem
    exact Multiset.notMem_zero _ hmem

omit [DecidableEq V] in
/-- The predecessors are the parents in the tree. -/
theorem Explored.prev_eq (h : Explored G M le src s order) (hi : Inv G M src s) {v : V}
    (hv : v ∈ order) : s.prev v = G.treeParent src order v := by
  by_cases hsrc : v = src
  · rw [hsrc, hi.src_prev, G.treeParent_src]
  · obtain ⟨n, hn⟩ := hi.chain v (h.settled_lt v hv)
    cases hn with
    | here => exact absurd rfl hsrc
    | @back _ p _ hp _ =>
      obtain ⟨before, after, rfl, hout, hsum, hfirst⟩ := h.parent v p hp
      have hmem : p ∈ before ++ p :: after :=
        List.mem_append_right _ (List.mem_cons_self ..)
      rw [hp, treeParent_eq_some hsrc]
      · exact ⟨hout, s.dist p, h.final p hmem, hsum ▸ h.final v hv⟩
      · -- a vertex settled before the predecessor would give a greater label
        rintro w hw ⟨hwv, c, hc, hcv⟩
        have hlt := hfirst w hw hwv
        have hwfinal := h.final w (List.mem_append_left _ hw)
        rw [(h.final v hv).unique hcv, ← hwfinal.unique hc] at hlt
        exact Nat.lt_irrefl _ hlt

/-- **A least-entry search builds the tree of the settling order.** -/
theorem MinRun.settlesAll (hle : ∀ a b, le a b → a.1 ≤ b.1) {S : Finset V} {s' : Labels V}
    (h : MinRun G M le (init M src S) s') :
    ∃ order, G.SettlesAll M le src order ∧ (∀ v, v ∈ order ↔ s'.dist v < M) ∧
      ∀ v ∈ order, s'.prev v = G.treeParent src order v := by
  obtain ⟨hr, hq⟩ := h
  have hrun : Inv G M src s' ∧ ∃ order, Explored G M le src s' order := by
    clear hq
    induction hr with
    | refl => exact ⟨inv_init .., [], explored_init ..⟩
    | tail _ hstep ih =>
      obtain ⟨hi, order, hex⟩ := ih
      refine ⟨?_, hex.step hi hle hstep⟩
      obtain ⟨e, he, -, rfl⟩ := hstep
      exact hi.take he
  obtain ⟨hi, order, hex⟩ := hrun
  refine ⟨order, hex.settlesAll hi hq, fun v => ⟨hex.settled_lt v, fun hv => ?_⟩,
    fun v hv => hex.prev_eq hi hv⟩
  refine (hex.queued v hv).resolve_right ?_
  rw [hq]
  exact Multiset.notMem_zero _

end Labels

end MeshCore.Lib
