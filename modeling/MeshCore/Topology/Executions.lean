import MeshCore.Topology.Routes

/-!
# `compute_routes` in any order

A `HashMap` is visited in an order that differs from process to process, and a
heap may give either of two equal entries first. An `Execution` of
`compute_routes` leaves these choices open: the order in which the known nodes are
queued, which of the least entries a pop takes out, the order in which the links
of a node are relaxed, each time, and the order in which the routes are built.
`compute_routes` of the model is one of the executions
(`execution_computeRoutes`).

Every execution runs the same label search (`Execution.labels_eq`), and the routes
are determined by the labels, so they are the same in all executions
(`executions_agree`).
-/

namespace MeshCore.Topology

open MeshCore.Lib

/-- The body of the `while let`, the links of the current node in some order. -/
inductive Visit (nodes : NodeMap) (s : Search) (d : UInt32) (u : NodeId) : Search → Prop
  | stale (h : d > s.dist u) : Visit nodes s d u s
  | unknown (h : ¬ d > s.dist u) (hu : nodes.lookup u = none) : Visit nodes s d u s
  | relax (h : ¬ d > s.dist u) {nodeInfo : NodeInfo} (hu : nodes.lookup u = some nodeInfo)
      {links : List (Sigma fun _ : NodeId => LinkInfo)}
      (hlinks : links.Perm nodeInfo.neighbors.entries) :
      Visit nodes s d u (links.foldl (fun s link => relaxLink d u s link.1 link.2) s)

/-- One iteration: any of the least entries is popped, and visited. -/
inductive Iteration (nodes : NodeMap) (s : Search) : Search → Prop
  | pop {e : UInt32 × NodeId} {rest : List (UInt32 × NodeId)}
      (hpop : s.unvisited.Perm (e :: rest)) (hleast : ∀ x ∈ s.unvisited, entryLe e x = true)
      {s' : Search} (hvisit : Visit nodes { s with unvisited := rest } e.1 e.2 s') :
      Iteration nodes s s'

/-- The final `for`, over the distances in this order. -/
def buildRoutesIn (localId : NodeId) (s : Search)
    (distances : List (Sigma fun _ : NodeId => UInt32)) : HashMap NodeId ComputedRoute :=
  distances.foldl
    (fun routes e =>
      if e.1 ≠ localId ∧ e.2 ≠ u32Max then routes.insert e.1 (buildRoute s localId e.1 e.2)
      else routes)
    ∅

/-- Some run of `compute_routes` on the database ends with these routes. -/
def Execution (db : TopologyDatabase) (routes : HashMap NodeId ComputedRoute) : Prop :=
  ∃ ids s distances, ids.Perm db.nodes.keys ∧
    Relation.ReflTransGen (Iteration db.nodes) (initFrom db.localNodeId ids) s ∧
    s.unvisited = [] ∧ distances.Perm s.distances.entries ∧
    routes = buildRoutesIn db.localNodeId s distances

/-! ## The model is an execution -/

theorem visit_visit (nodes : NodeMap) (s : Search) (d : UInt32) (u : NodeId) :
    Visit nodes s d u (visit nodes s d u) := by
  unfold visit
  split
  next h => exact .stale h
  next h =>
    cases hu : nodes.lookup u with
    | none => exact .unknown h hu
    | some nodeInfo => exact .relax h hu (List.Perm.refl _)

theorem searchLoop_iterations (nodes : NodeMap) (fuel : Nat) (s : Search) :
    Relation.ReflTransGen (Iteration nodes) s (searchLoop nodes fuel s) := by
  induction fuel generalizing s with
  | zero => exact Relation.ReflTransGen.refl
  | succ fuel ih =>
    unfold searchLoop
    split
    next => exact Relation.ReflTransGen.refl
    next e rest hpop =>
      refine Relation.ReflTransGen.head ?_ (ih _)
      refine .pop (popMin_cons_perm hpop) (fun x hx => ?_) (visit_visit ..)
      exact entryLe_iff.mpr (popMin_queueLe hpop _ (mem_queue hx))

/-- The heap is empty when the search is over. -/
theorem unvisited_eq_nil {s : Search} (h : (labels s).queue = 0) : s.unvisited = [] :=
  List.map_eq_nil_iff.mp ((Multiset.coe_eq_zero _).mp h)

theorem execution_computeRoutes (db : TopologyDatabase) : Execution db db.computeRoutes.routes :=
  ⟨db.nodes.keys, search db.localNodeId db.nodes, _, List.Perm.refl _,
    searchLoop_iterations db.nodes _ _, unvisited_eq_nil (search_queue ..), List.Perm.refl _, rfl⟩

/-! ## All executions run the same search -/

/-- A visit takes the entry, in whatever order the links are relaxed. -/
theorem Visit.labels_eq {nodes : NodeMap} {s s' : Search} {e : UInt32 × NodeId}
    {rest : List (UInt32 × NodeId)} (hpop : s.unvisited.Perm (e :: rest))
    (h : Visit nodes { s with unvisited := rest } e.1 e.2 s') :
    labels s' = (labels s).take (graph nodes) cap (e.1.toNat, e.2) := by
  rw [take_labels hpop]
  cases h with
  | stale h => exact (if_pos h).symm
  | unknown h hu =>
    have hlinks : ([] : List (Sigma fun _ : NodeId => LinkInfo)).Perm
        (linksOf nodes e.2).entries := by
      unfold linksOf
      rw [hu]
      exact List.Perm.refl _
    exact (foldl_links_labels _ hlinks).trans (if_neg h).symm
  | relax h hu hlinks =>
    refine (foldl_links_labels _ ?_).trans (if_neg h).symm
    unfold linksOf
    rw [hu]
    exact hlinks

/-- An iteration is a least-entry step of the label search. -/
theorem Iteration.minStep {nodes : NodeMap} {s s' : Search} (h : Iteration nodes s s') :
    Labels.MinStep (graph nodes) cap QueueLe (labels s) (labels s') := by
  cases h with
  | @pop e rest hpop hleast _ hvisit =>
    refine ⟨(e.1.toNat, e.2), (labels_drop hpop).1, fun x hx => ?_, hvisit.labels_eq hpop⟩
    obtain ⟨y, hy, rfl⟩ := List.mem_map.mp hx
    exact entryLe_iff.mp (hleast y hy)

/-- **No execution goes on for ever**: every iteration lowers the potential. -/
theorem Iteration.potential_lt {nodes : NodeMap} {s s' : Search} (h : Iteration nodes s s') :
    (labels s').potential (targets nodes) < (labels s).potential (targets nodes) := by
  obtain ⟨e, he, -, heq⟩ := h.minStep
  rw [heq]
  exact Labels.potential_take_lt (out_subset_targets nodes) he

/-- The labels at the end of a run are those of the model. -/
theorem iterations_labels {db : TopologyDatabase} {ids : List NodeId} {s : Search}
    (hids : ids.Perm db.nodes.keys)
    (hrun : Relation.ReflTransGen (Iteration db.nodes) (initFrom db.localNodeId ids) s)
    (hend : s.unvisited = []) : labels s = db.labelsOf := by
  have hnodup : ids.Nodup := hids.nodup_iff.mpr db.nodes.keys_nodup
  have hlabels : Labels.MinRun (graph db.nodes) cap QueueLe
      (Labels.init cap db.localNodeId (db.nodes.keys.toFinset.erase db.localNodeId))
      (labels s) := by
    refine ⟨?_, ?_⟩
    · rw [← List.toFinset_eq_of_perm _ _ hids, ← initFrom_labels _ hnodup]
      exact hrun.lift labels fun _ _ h => h.minStep
    · show ((s.unvisited.map _ : List (Nat × NodeId)) : Multiset (Nat × NodeId)) = 0
      rw [hend]
      rfl
  exact hlabels.unique QueueLe.antisymm (search_run db.localNodeId db.nodes)

/-! ## All executions build the same routes -/

/-- The routes, built in any order. -/
theorem buildRoutesIn_lookup (localId : NodeId) (s : Search)
    {distances : List (Sigma fun _ : NodeId => UInt32)}
    (h : distances.Perm s.distances.entries) (dst : NodeId) :
    (buildRoutesIn localId s distances).lookup dst
      = (buildRoutes localId s).lookup dst := by
  have hnodup : distances.NodupKeys := (List.perm_nodupKeys h).mpr s.distances.nodupKeys
  have hin := HashMap.lookup_foldl_insert_if (fun id cost => id ≠ localId ∧ cost ≠ u32Max)
    (buildRoute s localId) distances ∅ dst hnodup
  have hmodel := HashMap.lookup_foldl_insert_if (fun id cost => id ≠ localId ∧ cost ≠ u32Max)
    (buildRoute s localId) s.distances.entries ∅ dst s.distances.nodupKeys
  rw [List.perm_dlookup dst hnodup h] at hin
  exact hin.trans hmodel.symm

/-- **Routes do not depend on the order of anything.** Whatever the order in which
two executions visit the maps and break ties in the heap, they end with the same
route for every destination, or both with none. -/
theorem executions_agree (db : TopologyDatabase) {routes₁ routes₂ : HashMap NodeId ComputedRoute}
    (h₁ : Execution db routes₁) (h₂ : Execution db routes₂) (dst : NodeId) :
    routes₁.lookup dst = routes₂.lookup dst := by
  obtain ⟨ids₁, s₁, distances₁, hids₁, hrun₁, hend₁, hdistances₁, rfl⟩ := h₁
  obtain ⟨ids₂, s₂, distances₂, hids₂, hrun₂, hend₂, hdistances₂, rfl⟩ := h₂
  rw [buildRoutesIn_lookup _ _ hdistances₁, buildRoutesIn_lookup _ _ hdistances₂]
  refine Option.ext fun r => ?_
  rw [buildRoutes_eq_some (iterations_labels hids₁ hrun₁ hend₁),
    buildRoutes_eq_some (iterations_labels hids₂ hrun₂ hend₂)]

/-- The sample topology, its nodes and its distances visited in the reverse order. -/
theorem executions_agree_reversed :
    let db := sampleDatabase 0 1
    let s := searchLoop db.nodes (searchFuel db.nodes) (initFrom 1 db.nodes.keys.reverse)
    (buildRoutesIn 1 s s.distances.entries.reverse).lookup 3
      = db.computeRoutes.routes.lookup 3 := by
  intro db s
  have hend : s.unvisited = [] := by decide +kernel
  have hreversed : Execution db (buildRoutesIn 1 s s.distances.entries.reverse) :=
    ⟨_, s, _, List.reverse_perm _, searchLoop_iterations .., hend, List.reverse_perm _, rfl⟩
  exact executions_agree db hreversed (execution_computeRoutes db) 3

end MeshCore.Topology
