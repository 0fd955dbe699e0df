import MeshCore.Lib.Runs
import MeshCore.Topology.Executions

/-!
# `compute_routes` ends

The heap of the search grows while it is drained: every improvement pushes an entry, and the
entries it makes stale stay. What shrinks with each iteration is the size of the heap
together with the distances of all nodes some link leads to, so there are no more iterations
than `searchFuel` says (`iterations_le`), and while the heap has an entry there is a next one
(`exists_iteration`).

The walk back over `previous` has no test for a node met before, and needs none: in every
state of the search a destination with a distance below `u32::MAX` has a way back to the
local node, on which no node comes twice (`exists_wayBack`).

Mirroring notes:
- The orders the code leaves open, of the maps and among equal entries of the heap, are open
  here as well (`Iteration`), and link costs are any `u32`, zero included. Self links, cycles
  and links to nodes without an entry are in the maps like all others.
-/

namespace MeshCore.Topology

open MeshCore.Lib

/-! ## The heap loop -/

/-- The potential before the first iteration. -/
theorem initFrom_potential_le {localId : NodeId} {nodes : NodeMap} {ids : List NodeId}
    (hids : ids.Perm nodes.keys) :
    (labels (initFrom localId ids)).potential (targets nodes) ≤ searchFuel nodes := by
  have hlabels : labels (initFrom localId ids) = labels (initSearch localId nodes) := by
    rw [initFrom_labels localId (hids.nodup_iff.mpr nodes.keys_nodup), initSearch_labels,
      List.toFinset_eq_of_perm _ _ hids]
  rw [hlabels]
  exact initSearch_potential localId nodes

/-- **The heap loop ends**: this many iterations are the most there can be. -/
theorem iterations_le {localId : NodeId} {nodes : NodeMap} {ids : List NodeId}
    (hids : ids.Perm nodes.keys) {states : List Search}
    (hrun : (initFrom localId ids :: states).IsChain (Iteration nodes)) :
    states.length ≤ searchFuel nodes :=
  Nat.le_trans (length_le_of_isChain (fun _ _ h => h.potential_lt) hrun)
    (initFrom_potential_le hids)

/-- While the heap has an entry the loop goes on. -/
theorem exists_iteration (nodes : NodeMap) {s : Search} (h : s.unvisited ≠ []) :
    ∃ s', Iteration nodes s s' := by
  cases hpop : popMin entryLe s.unvisited with
  | none => exact absurd (popMin_eq_none.mp hpop) h
  | some popped =>
    refine ⟨_, .pop (popMin_cons_perm hpop) (fun x hx => ?_) (visit_visit ..)⟩
    exact entryLe_iff.mpr (popMin_queueLe hpop _ (mem_queue hx))

/-! ## The walk back -/

/-- The walk over `previous` from a destination: these are the values of `next_hop`, each the
previous node of the one before, and the previous node of the last is the local node. No
node comes twice, the local node included. -/
structure WayBack (previous : HashMap NodeId NodeId) (localId dst : NodeId)
    (path : List NodeId) : Prop where
  starts : path.head? = some dst
  follows : (path ++ [localId]).IsChain fun v u => previous.lookup v = some u
  nodup : (path ++ [localId]).Nodup

/-- The walk of the model ends with the last node of a way back, given a step for each node
on it. -/
theorem walkBack_wayBack {previous : HashMap NodeId NodeId} {localId v : NodeId}
    {rest : List NodeId}
    (hfollows : (v :: rest ++ [localId]).IsChain fun v u => previous.lookup v = some u)
    (hlocal : localId ∉ v :: rest) {fuel : Nat} {hopCount : UInt8} (hfuel : rest.length < fuel) :
    walkBack previous localId fuel v hopCount =
      ((v :: rest).getLast (List.cons_ne_nil v rest),
        hopCount + UInt8.ofNat (rest.length + 1)) := by
  induction rest generalizing v fuel hopCount with
  | nil =>
    obtain ⟨fuel, rfl⟩ := Nat.exists_eq_add_of_le' hfuel
    have hlast := (List.isChain_cons_cons.mp hfollows).1
    unfold walkBack
    rw [hlast]
    exact if_pos rfl
  | cons u rest ih =>
    obtain ⟨fuel, rfl⟩ := Nat.exists_eq_add_of_le' (Nat.lt_of_le_of_lt (Nat.zero_le _) hfuel)
    obtain ⟨hprev, hrest⟩ := List.isChain_cons_cons.mp hfollows
    have hne : u ≠ localId := fun h => hlocal (by simp [h])
    unfold walkBack
    rw [hprev]
    refine (if_neg hne).trans ?_
    rw [ih hrest (fun hmem => hlocal (List.mem_cons_of_mem v hmem))
      (by rw [List.length_cons] at hfuel; omega), List.getLast_cons_cons, List.length_cons,
      UInt8.ofNat_add (rest.length + 1), UInt8.add_assoc, UInt8.add_comm (UInt8.ofNat _)]
    rfl

/-- In every state of the search the invariant of the label search holds. -/
theorem iterations_inv {localId : NodeId} {nodes : NodeMap} {ids : List NodeId} {s : Search}
    (hids : ids.Perm nodes.keys)
    (hrun : Relation.ReflTransGen (Iteration nodes) (initFrom localId ids) s) :
    Labels.Inv (graph nodes) cap localId (labels s) := by
  have hsteps : Relation.ReflTransGen (Labels.MinStep (graph nodes) cap QueueLe)
      (labels (initFrom localId ids)) (labels s) := hrun.lift labels fun _ _ h => h.minStep
  rw [initFrom_labels localId (hids.nodup_iff.mpr nodes.keys_nodup)] at hsteps
  exact (Labels.inv_init ..).minSteps hsteps

/-- **The walk back ends.** -/
theorem exists_wayBack {localId : NodeId} {nodes : NodeMap} {ids : List NodeId} {s : Search}
    (hids : ids.Perm nodes.keys)
    (hrun : Relation.ReflTransGen (Iteration nodes) (initFrom localId ids) s) {dst : NodeId}
    (hdst : dst ≠ localId) (hcost : s.dist dst < u32Max) :
    ∃ path, WayBack s.previous localId dst path := by
  have hinv := iterations_inv hids hrun
  obtain ⟨n, hchain⟩ := hinv.chain dst (UInt32.lt_iff_toNat_lt.mp hcost)
  obtain ⟨path, -, hhead, hfollows, hnodup, -⟩ := hchain.exists_path hinv.src_prev
  refine ⟨path, ?_, hfollows, hnodup⟩
  cases path with
  | nil => exact absurd (Option.some.inj hhead).symm hdst
  | cons v rest => exact hhead

/-! ## Both loops -/

/-- **Route computation terminates**, whatever the nodes map and in whatever order the maps
and equal entries of the heap are visited. The heap loop has at most `searchFuel`
iterations and goes on while the heap has an entry. For every destination with a cost below
`u32::MAX` the walk over `previous` visits no node twice and stops at the local node, where
the model's walk with a step for each of the nodes has stopped too. -/
theorem compute_routes_terminates (localId : NodeId) (nodes : NodeMap) (ids : List NodeId)
    (hids : ids.Perm nodes.keys) :
    (∀ states, (initFrom localId ids :: states).IsChain (Iteration nodes) →
      states.length ≤ searchFuel nodes) ∧
    ∀ s, Relation.ReflTransGen (Iteration nodes) (initFrom localId ids) s →
      (s.unvisited ≠ [] → ∃ s', Iteration nodes s s') ∧
      ∀ dst, dst ≠ localId → s.dist dst < u32Max →
        ∃ path, WayBack s.previous localId dst path ∧
          ∀ fuel, path.length ≤ fuel →
            some (walkBack s.previous localId fuel dst 0).1 = path.getLast? ∧
            (walkBack s.previous localId fuel dst 0).2 = UInt8.ofNat path.length := by
  refine ⟨fun states hrun => iterations_le hids hrun, fun s hrun => ?_⟩
  refine ⟨exists_iteration nodes, fun dst hdst hcost => ?_⟩
  obtain ⟨path, hpath⟩ := exists_wayBack hids hrun hdst hcost
  refine ⟨path, hpath, fun fuel hfuel => ?_⟩
  obtain ⟨hstarts, hfollows, hnodup⟩ := hpath
  cases path with
  | nil => cases hstarts
  | cons v rest =>
    obtain rfl : v = dst := Option.some.inj hstarts
    have hlocal : localId ∉ v :: rest := fun hmem =>
      List.disjoint_of_nodup_append hnodup hmem (List.mem_singleton_self _)
    rw [walkBack_wayBack hfollows hlocal hfuel, UInt8.zero_add]
    exact ⟨(List.getLast?_eq_some_getLast _).symm, rfl⟩

/-- In the sample topology with free links, a cycle and a self link the way back from node 3
leads over node 2. -/
theorem compute_routes_terminates_sample :
    ∃ path, WayBack (search 1 (sampleNodes 0)).previous 1 3 path := by
  obtain ⟨-, hstates⟩ := compute_routes_terminates 1 (sampleNodes 0) _ (List.Perm.refl _)
  obtain ⟨-, hwalks⟩ := hstates (search 1 (sampleNodes 0)) (searchLoop_iterations ..)
  obtain ⟨path, hpath, -⟩ := hwalks 3 (by decide) (by decide +kernel)
  exact ⟨path, hpath⟩

end MeshCore.Topology
