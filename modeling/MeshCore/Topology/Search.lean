import MeshCore.Lib.LabelSearch
import MeshCore.Topology.Database

/-!
# `compute_routes` is a label search

The `nodes` map of a database is read as a graph (`graph`), and the local
variables of the search as labels (`labels`): distances as naturals, the heap as
a multiset. `visit_labels` says that the body of the loop is one `take` of the
library's label search, capped at `u32::MAX`: the links of a node are relaxed
one after the other, but their targets are distinct, so no relaxation sees the
effect of another.

From there the loop is a run of least-entry steps (`searchLoop_run`), and the
fuel is enough: the potential of the initial state is at most one entry per
known node, one for the local node, and `u32::MAX` for each link
(`initSearch_potential`). `search_run` and `search_inv` are what the rest of the
development uses.
-/

namespace MeshCore.Topology

open MeshCore.Lib

/-! ## The graph and the labels -/

/-- The links a node advertised; none for a node without an entry. -/
def linksOf (nodes : NodeMap) (u : NodeId) : HashMap NodeId LinkInfo :=
  match nodes.lookup u with
  | some nodeInfo => nodeInfo.neighbors
  | none => ∅

/-- The cost of the link from `u` to `v`. -/
def linkCost (nodes : NodeMap) (u v : NodeId) : Nat :=
  match (linksOf nodes u).lookup v with
  | some link => link.cost.toNat
  | none => 0

/-- The topology as a graph: an edge from `u` to every key of
`nodes[u].neighbors`. -/
def graph (nodes : NodeMap) : CostGraph NodeId where
  out u := (linksOf nodes u).keys.toFinset
  cost := linkCost nodes

/-- `u32::MAX` as a natural, the cap of the labels. -/
abbrev cap : Nat := u32Max.toNat

/-- The search state as labels. -/
def labels (s : Search) : Labels NodeId where
  dist v := (s.dist v).toNat
  prev v := s.previous.lookup v
  queue := (s.unvisited.map fun e => (e.1.toNat, e.2) : List (Nat × NodeId))

/-- The heap order on naturals. -/
def QueueLe (a b : Nat × NodeId) : Prop := a.1 < b.1 ∨ (a.1 = b.1 ∧ a.2 ≤ b.2)

theorem QueueLe.antisymm (a b : Nat × NodeId) (h₁ : QueueLe a b) (h₂ : QueueLe b a) : a = b := by
  unfold QueueLe at h₁ h₂
  have hfst : a.1 = b.1 := by omega
  have hsnd : a.2 = b.2 := UInt64.le_antisymm (by rcases h₁ with h | h; omega; exact h.2)
    (by rcases h₂ with h | h; omega; exact h.2)
  exact Prod.ext hfst hsnd

@[simp] theorem labels_dist (s : Search) (v : NodeId) : (labels s).dist v = (s.dist v).toNat := rfl

theorem mem_queue {s : Search} {d : UInt32} {v : NodeId} (h : (d, v) ∈ s.unvisited) :
    (d.toNat, v) ∈ (labels s).queue :=
  List.mem_map.mpr ⟨(d, v), h, rfl⟩

theorem mem_out {nodes : NodeMap} {u v : NodeId} :
    v ∈ (graph nodes).out u ↔ ∃ link, (linksOf nodes u).lookup v = some link := by
  show v ∈ (linksOf nodes u).keys.toFinset ↔ _
  rw [List.mem_toFinset]
  exact AList.mem_keys.symm.trans (AList.lookup_isSome.symm.trans Option.isSome_iff_exists)

/-! ## Arithmetic of the distances -/

theorem toNat_le_cap (a : UInt32) : a.toNat ≤ cap := by
  have := a.toNat_lt
  show a.toNat ≤ 4294967295
  omega

theorem toNat_lt_cap {a : UInt32} : a.toNat < cap ↔ a ≠ u32Max := by
  have hle := toNat_le_cap a
  refine ⟨fun h he => ?_, fun h => ?_⟩
  · rw [he] at h
    exact Nat.lt_irrefl _ h
  · exact Nat.lt_of_le_of_ne hle fun he => h (UInt32.toNat.inj he)

/-- Saturating addition is addition capped at `u32::MAX`. -/
theorem toNat_saturatingAdd (a b : UInt32) :
    (saturatingAdd a b).toNat = min (a.toNat + b.toNat) cap := by
  have hcap : cap = 4294967295 := rfl
  unfold saturatingAdd
  split
  next h =>
    rw [UInt32.toNat_add, Nat.mod_eq_of_lt h]
    omega
  next h =>
    show cap = _
    omega

theorem dist_insert (s : Search) (distances : HashMap NodeId UInt32) (v w : NodeId) (d : UInt32)
    (h : s.distances = distances.insert v d) :
    s.dist w = if w = v then d else (distances.lookup w).getD u32Max := by
  unfold Search.dist
  rw [h, HashMap.lookup_insert_ite]
  split <;> rfl

/-! ## One iteration -/

/-- Relaxing a link of `u` is relaxing the edge. -/
theorem relaxLink_labels {nodes : NodeMap} {d : UInt32} {u v : NodeId} {link : LinkInfo}
    {s : Search} (hl : (linksOf nodes u).lookup v = some link) :
    labels (relaxLink d u s v link)
      = Labels.relaxEdge (graph nodes) cap d.toNat u (labels s) v := by
  have hcost : (saturatingAdd d link.cost).toNat = min (d.toNat + (graph nodes).cost u v) cap := by
    rw [toNat_saturatingAdd]
    show _ = min (d.toNat + linkCost nodes u v) cap
    rw [linkCost, hl]
  unfold relaxLink Labels.relaxEdge
  rw [← hcost, labels_dist]
  by_cases hlt : saturatingAdd d link.cost < s.dist v
  · -- the maps and the heap change at the same vertex as the labels
    rw [if_pos hlt, if_pos (UInt32.lt_iff_toNat_lt.mp hlt)]
    unfold labels
    congr 1
    · funext w
      rw [dist_insert _ s.distances v w _ rfl, Function.update_apply]
      split <;> rfl
    · funext w
      rw [HashMap.lookup_insert_ite, Function.update_apply]
  · rw [if_neg hlt, if_neg (fun h => hlt (UInt32.lt_iff_toNat_lt.mpr h))]

theorem foldl_relaxLink_labels {nodes : NodeMap} {d : UInt32} {u : NodeId} :
    ∀ (links : List (Sigma fun _ : NodeId => LinkInfo)) (s : Search),
      (∀ e ∈ links, (linksOf nodes u).lookup e.1 = some e.2) →
      labels (links.foldl (fun s link => relaxLink d u s link.1 link.2) s)
        = (links.map Sigma.fst).foldl (Labels.relaxEdge (graph nodes) cap d.toNat u) (labels s)
  | [], s, _ => rfl
  | e :: links, s, h => by
    rw [List.foldl_cons, List.map_cons, List.foldl_cons,
      foldl_relaxLink_labels links _ fun x hx => h x (List.mem_cons_of_mem _ hx),
      relaxLink_labels (h e (List.mem_cons_self ..))]

/-- Relaxing all links of a node, in any order, relaxes all its edges. -/
theorem foldl_links_labels {nodes : NodeMap} {d : UInt32} {u : NodeId} (s : Search)
    {links : List (Sigma fun _ : NodeId => LinkInfo)}
    (h : links.Perm (linksOf nodes u).entries) :
    labels (links.foldl (fun s link => relaxLink d u s link.1 link.2) s)
      = (labels s).relax (graph nodes) cap d.toNat u := by
  rw [foldl_relaxLink_labels links s fun e he => HashMap.mem_entries_iff.mp (h.subset he)]
  refine Labels.foldl_relaxEdge ?_ ?_
  · exact (h.map Sigma.fst).nodup_iff.mpr (linksOf nodes u).keys_nodup
  · exact (List.toFinset_eq_of_perm _ _ (h.map Sigma.fst)).symm

/-- A node whose entry is not stale relaxes all its edges, also when it has no
entry in `nodes`. -/
theorem visit_fresh_labels {nodes : NodeMap} {d : UInt32} {u : NodeId} {s : Search}
    (h : ¬ d > s.dist u) :
    labels (visit nodes s d u) = (labels s).relax (graph nodes) cap d.toNat u := by
  have hfold : visit nodes s d u
      = (linksOf nodes u).entries.foldl (fun s link => relaxLink d u s link.1 link.2) s := by
    unfold visit linksOf
    rw [if_neg h]
    cases nodes.lookup u <;> rfl
  rw [hfold]
  exact foldl_links_labels s (List.Perm.refl _)

/-- An entry of the heap, and the labels with it dropped. -/
theorem labels_drop {s : Search} {e : UInt32 × NodeId} {rest : List (UInt32 × NodeId)}
    (h : s.unvisited.Perm (e :: rest)) :
    (e.1.toNat, e.2) ∈ (labels s).queue ∧
      labels { s with unvisited := rest } = (labels s).drop (e.1.toNat, e.2) := by
  have hqueue : (labels s).queue
      = (e.1.toNat, e.2) ::ₘ (rest.map fun e => (e.1.toNat, e.2) : List (Nat × NodeId)) :=
    Multiset.coe_eq_coe.mpr (h.map fun e => (e.1.toNat, e.2))
  rw [hqueue]
  refine ⟨Multiset.mem_cons_self .., ?_⟩
  unfold Labels.drop
  rw [hqueue, Multiset.erase_cons_head]
  rfl

/-- The entry a pop takes out, and the labels with it dropped. -/
theorem popMin_labels {s : Search} {e : UInt32 × NodeId} {rest : List (UInt32 × NodeId)}
    (hp : popMin entryLe s.unvisited = some (e, rest)) :
    (e.1.toNat, e.2) ∈ (labels s).queue ∧
      labels { s with unvisited := rest } = (labels s).drop (e.1.toNat, e.2) :=
  labels_drop (popMin_cons_perm hp)

/-- What taking an entry of the heap does to the labels. -/
theorem take_labels {nodes : NodeMap} {s : Search} {e : UInt32 × NodeId}
    {rest : List (UInt32 × NodeId)} (h : s.unvisited.Perm (e :: rest)) :
    (labels s).take (graph nodes) cap (e.1.toNat, e.2)
      = if e.1 > s.dist e.2 then labels { s with unvisited := rest }
        else (labels { s with unvisited := rest }).relax (graph nodes) cap e.1.toNat e.2 := by
  rw [(labels_drop h).2]
  exact if_congr UInt32.lt_iff_toNat_lt.symm rfl rfl

/-- **The body of the loop takes one entry.** -/
theorem visit_labels {nodes : NodeMap} {s : Search} {e : UInt32 × NodeId}
    {rest : List (UInt32 × NodeId)} (hp : popMin entryLe s.unvisited = some (e, rest)) :
    labels (visit nodes { s with unvisited := rest } e.1 e.2)
      = (labels s).take (graph nodes) cap (e.1.toNat, e.2) := by
  rw [take_labels (popMin_cons_perm hp)]
  by_cases hst : e.1 > s.dist e.2
  · rw [if_pos hst]
    unfold visit
    rw [if_pos (show e.1 > Search.dist { s with unvisited := rest } e.2 from hst)]
  · rw [if_neg hst]
    exact visit_fresh_labels hst

theorem entryLe_iff {a b : UInt32 × NodeId} :
    entryLe a b = true ↔ QueueLe (a.1.toNat, a.2) (b.1.toNat, b.2) := by
  unfold entryLe QueueLe
  simp only [Bool.or_eq_true, Bool.and_eq_true, decide_eq_true_eq, beq_iff_eq,
    UInt32.lt_iff_toNat_lt, UInt32.toNat_inj]

/-- A pop takes a least entry. -/
theorem popMin_queueLe {s : Search} {e : UInt32 × NodeId} {rest : List (UInt32 × NodeId)}
    (hp : popMin entryLe s.unvisited = some (e, rest)) :
    ∀ x ∈ (labels s).queue, QueueLe (e.1.toNat, e.2) x := by
  have hrefl : ∀ a, entryLe a a = true := fun a =>
    entryLe_iff.mpr (Or.inr ⟨rfl, UInt64.le_refl _⟩)
  have htrans : ∀ a b c, entryLe a b = true → entryLe b c = true → entryLe a c = true := by
    intro a b c hab hbc
    rw [entryLe_iff] at *
    unfold QueueLe at *
    rcases hab with hab | ⟨hab, hab'⟩ <;> rcases hbc with hbc | ⟨hbc, hbc'⟩
    · exact Or.inl (Nat.lt_trans hab hbc)
    · exact Or.inl (hbc ▸ hab)
    · exact Or.inl (hab ▸ hbc)
    · exact Or.inr ⟨hab.trans hbc, UInt64.le_trans hab' hbc'⟩
  have htotal : ∀ a b, entryLe a b = true ∨ entryLe b a = true := by
    intro a b
    rw [entryLe_iff, entryLe_iff]
    unfold QueueLe
    rcases Nat.lt_trichotomy a.1.toNat b.1.toNat with h | h | h
    · exact Or.inl (Or.inl h)
    · rcases UInt64.le_total a.2 b.2 with h' | h'
      · exact Or.inl (Or.inr ⟨h, h'⟩)
      · exact Or.inr (Or.inr ⟨h.symm, h'⟩)
    · exact Or.inr (Or.inl h)
  intro x hx
  obtain ⟨y, hy, rfl⟩ := List.mem_map.mp hx
  exact entryLe_iff.mp (popMin_le hrefl htrans htotal hp y hy)

/-! ## The loop -/

/-- The targets of all links. -/
def targets (nodes : NodeMap) : Finset NodeId :=
  (nodes.entries.flatMap fun e => e.2.neighbors.keys).toFinset

theorem out_subset_targets (nodes : NodeMap) (u : NodeId) :
    (graph nodes).out u ⊆ targets nodes := by
  intro v hv
  have hv' : v ∈ (linksOf nodes u).keys := List.mem_toFinset.mp hv
  unfold linksOf at hv'
  cases hu : nodes.lookup u with
  | none =>
    rw [hu] at hv'
    exact absurd hv' (by simp)
  | some nodeInfo =>
    rw [hu] at hv'
    exact List.mem_toFinset.mpr
      (List.mem_flatMap.mpr ⟨⟨u, nodeInfo⟩, HashMap.mem_entries_iff.mpr hu, hv'⟩)

theorem card_targets_le (nodes : NodeMap) : (targets nodes).card ≤ linkCount nodes := by
  unfold targets linkCount
  refine Nat.le_trans (List.toFinset_card_le _) (Nat.le_of_eq ?_)
  rw [List.length_flatMap]
  simp only [AList.keys, List.keys, List.length_map]

/-- **The loop runs until the heap is empty**, given fuel for the potential. -/
theorem searchLoop_run (nodes : NodeMap) :
    ∀ (fuel : Nat) (s : Search), (labels s).potential (targets nodes) ≤ fuel →
      Labels.MinRun (graph nodes) cap QueueLe (labels s) (labels (searchLoop nodes fuel s))
  | 0, s, h => by
    -- no potential left, so the queue is empty
    refine ⟨Relation.ReflTransGen.refl, Multiset.card_eq_zero.mp ?_⟩
    show (labels s).queue.card = 0
    unfold Labels.potential at h
    omega
  | fuel + 1, s, h => by
    unfold searchLoop
    split
    next hnone =>
      have hempty := popMin_eq_none.mp hnone
      refine ⟨Relation.ReflTransGen.refl, ?_⟩
      show ((s.unvisited.map _ : List (Nat × NodeId)) : Multiset (Nat × NodeId)) = 0
      rw [hempty]
      rfl
    next e rest hpop =>
      have hmem := (popMin_labels hpop).1
      have hlt := Labels.potential_take_lt (M := cap) (out_subset_targets nodes) hmem
      have ih := searchLoop_run nodes fuel (visit nodes { s with unvisited := rest } e.1 e.2)
        (by rw [visit_labels hpop]; omega)
      refine ⟨Relation.ReflTransGen.head ?_ ih.1, ih.2⟩
      exact ⟨_, hmem, popMin_queueLe hpop, visit_labels hpop⟩

/-! ## The initial state -/

/-- What the loop over the known nodes adds to the state it starts from. -/
theorem foldl_init {localId : NodeId} :
    ∀ (ids : List NodeId) (s : Search), (∀ v, s.dist v = if v = localId then 0 else u32Max) →
      let s' := ids.foldl
        (fun s nodeId =>
          if nodeId ≠ localId then
            { s with distances := s.distances.insert nodeId u32Max
                     unvisited := (u32Max, nodeId) :: s.unvisited }
          else s) s
      (∀ v, s'.dist v = if v = localId then 0 else u32Max) ∧ s'.previous = s.previous ∧
      s'.unvisited = ((ids.filter (· ≠ localId)).map fun v => (u32Max, v)).reverse ++ s.unvisited
  | [], s, h => ⟨h, rfl, rfl⟩
  | id :: ids, s, h => by
    by_cases hid : id ≠ localId
    · have hdist : ∀ v, Search.dist { s with distances := s.distances.insert id u32Max
                                             unvisited := (u32Max, id) :: s.unvisited } v
          = if v = localId then 0 else u32Max := by
        intro v
        rw [dist_insert _ s.distances id v u32Max rfl]
        by_cases hv : v = id
        · rw [if_pos hv, if_neg (hv ▸ hid)]
        · rw [if_neg hv]
          exact h v
      obtain ⟨hd, hp, hu⟩ := foldl_init ids _ hdist
      rw [List.filter_cons_of_pos (by simpa using hid), List.map_cons, List.reverse_cons,
        List.append_assoc, List.foldl_cons, if_pos hid]
      exact ⟨hd, hp, hu⟩
    · rw [List.filter_cons_of_neg (by simpa using hid), List.foldl_cons, if_neg hid]
      exact foldl_init ids s h

/-- The state before the loop, when the known nodes are visited in this order. -/
def initFrom (localId : NodeId) (ids : List NodeId) : Search :=
  ids.foldl
    (fun s nodeId =>
      if nodeId ≠ localId then
        { s with distances := s.distances.insert nodeId u32Max
                 unvisited := (u32Max, nodeId) :: s.unvisited }
      else s)
    { distances := AList.insert localId 0 ∅, previous := ∅, unvisited := [(0, localId)] }

/-- **The initialisation builds the initial labels**, in any order. -/
theorem initFrom_labels (localId : NodeId) {ids : List NodeId} (hnd : ids.Nodup) :
    labels (initFrom localId ids) = Labels.init cap localId (ids.toFinset.erase localId) := by
  have hstart : ∀ v, Search.dist
      { distances := AList.insert localId 0 ∅, previous := ∅, unvisited := [(0, localId)] } v
        = if v = localId then 0 else u32Max := fun v => dist_insert _ ∅ localId v 0 rfl
  obtain ⟨hd, hp, hu⟩ := foldl_init ids _ hstart
  unfold labels Labels.init
  congr 1
  · funext v
    rw [show (initFrom localId ids).dist v = _ from hd v]
    split <;> rfl
  · funext v
    rw [show (initFrom localId ids).previous = ∅ from hp]
    rfl
  · -- the heap holds the same entries in reverse order
    rw [show (initFrom localId ids).unvisited = _ from hu]
    have hval : (ids.toFinset.erase localId).val = (ids.filter (· ≠ localId) : List NodeId) := by
      rw [← Finset.filter_ne', Finset.filter_val, List.toFinset_val, List.dedup_eq_self.mpr hnd]
      rfl
    rw [hval, Multiset.map_coe, List.map_append, List.map_reverse, List.map_map,
      ← Multiset.coe_add, Multiset.coe_reverse, add_comm]
    rfl

theorem initSearch_labels (localId : NodeId) (nodes : NodeMap) :
    labels (initSearch localId nodes)
      = Labels.init cap localId (nodes.keys.toFinset.erase localId) :=
  initFrom_labels localId nodes.keys_nodup

/-- `searchFuel` covers the initial potential. -/
theorem initSearch_potential (localId : NodeId) (nodes : NodeMap) :
    (labels (initSearch localId nodes)).potential (targets nodes) ≤ searchFuel nodes := by
  rw [initSearch_labels]
  refine Nat.le_trans (Labels.potential_init_le ..) ?_
  have hkeys : (nodes.keys.toFinset.erase localId).card ≤ nodes.entries.length := by
    refine Nat.le_trans (Finset.card_le_card (Finset.erase_subset ..)) ?_
    refine Nat.le_trans (List.toFinset_card_le _) (Nat.le_of_eq ?_)
    simp only [AList.keys, List.keys, List.length_map]
  have hlinks := Nat.mul_le_mul_left cap (card_targets_le nodes)
  rw [Nat.mul_comm (targets nodes).card]
  exact Nat.add_le_add (Nat.add_le_add_right hkeys 1) hlinks

/-! ## The search -/

/-- **`compute_routes` runs the label search to its end.** -/
theorem search_run (localId : NodeId) (nodes : NodeMap) :
    Labels.MinRun (graph nodes) cap QueueLe
      (Labels.init cap localId (nodes.keys.toFinset.erase localId))
      (labels (search localId nodes)) := by
  rw [← initSearch_labels]
  exact searchLoop_run nodes _ _ (initSearch_potential localId nodes)

theorem search_inv (localId : NodeId) (nodes : NodeMap) :
    Labels.Inv (graph nodes) cap localId (labels (search localId nodes)) :=
  (search_run localId nodes).inv (Labels.inv_init ..)

theorem search_queue (localId : NodeId) (nodes : NodeMap) :
    (labels (search localId nodes)).queue = 0 :=
  (search_run localId nodes).2

end MeshCore.Topology
