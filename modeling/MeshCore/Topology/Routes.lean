import MeshCore.Topology.Search

/-!
# What `compute_routes` computes

`routes_lookup` reads a route off the final labels of the search: there is one
for every destination labelled below `u32::MAX` except the local node, with the
label as its cost, and with the first hop and the length of the predecessor
chain as `next_hop` and `hop_count`. The walk back has one step per entry of
`previous`, which is enough because the chain never repeats a node.

Three results follow. The costs are the shortest distances over exact sums
(`routes_shortest`). Nodes that share a topology agree on them, so forwarding a
packet hop by hop, each node by its own routes, reaches the destination without
a loop when no link is free (`forwarding_loop_free`). And the routes depend on
the links only, not on the iteration order of any map (`routes_congr`), because
the heap's order on `(distance, node)` leaves no choice.
-/

namespace MeshCore.Topology

open MeshCore.Lib

/-! ## From the labels to the routes -/

/-- The walk back finds the first hop and counts the links. -/
theorem walkBack_firstHop {previous : HashMap NodeId NodeId} {localId w v : NodeId} {n : Nat}
    (h : FirstHop (fun v => previous.lookup v) localId w n v) :
    ∀ (fuel : Nat) (hopCount : UInt8), n ≤ fuel →
      walkBack previous localId fuel v hopCount = (w, hopCount + UInt8.ofNat n) := by
  induction h with
  | last hp =>
    intro fuel hopCount hle
    obtain ⟨fuel, rfl⟩ := Nat.exists_eq_add_of_le' hle
    unfold walkBack
    rw [show previous.lookup w = some localId from hp]
    exact if_pos rfl
  | @back v u n hp hne _ ih =>
    intro fuel hopCount hle
    obtain ⟨fuel, rfl⟩ := Nat.exists_eq_add_of_le' (Nat.le_trans (Nat.le_add_left 1 n) hle)
    unfold walkBack
    rw [show previous.lookup v = some u from hp]
    refine (if_neg hne).trans ?_
    rw [ih fuel (hopCount + 1) (by omega), UInt8.ofNat_add, UInt8.add_assoc,
      UInt8.add_comm (UInt8.ofNat n)]
    rfl

/-- A chain is no longer than `previous` has entries. -/
theorem firstHop_le_length {s : Search} {localId w v : NodeId} {n : Nat}
    (hsrc : (labels s).prev localId = none) (h : FirstHop (labels s).prev localId w n v) :
    n ≤ s.previous.entries.length := by
  have hkeys : ∀ x, (labels s).prev x ≠ none → x ∈ s.previous.keys := by
    intro x hx
    by_contra hnot
    exact hx (AList.lookup_eq_none.mpr fun hmem => hnot (AList.mem_keys.mp hmem))
  have hle := h.chain.le_card hsrc hkeys
  simpa only [AList.keys, List.keys, List.length_map] using hle

/-- The route to a destination with a first hop. -/
theorem buildRoute_firstHop {s : Search} {localId w dst : NodeId} {n : Nat} {cost : UInt32}
    (hsrc : (labels s).prev localId = none) (h : FirstHop (labels s).prev localId w n dst) :
    buildRoute s localId dst cost
      = { dstNode := dst, nextHop := w, totalCost := cost, hopCount := UInt8.ofNat n } := by
  unfold buildRoute
  rw [walkBack_firstHop h _ _ (firstHop_le_length hsrc h), UInt8.zero_add]

/-- Which routes the final loop builds. -/
theorem buildRoutes_lookup (localId : NodeId) (s : Search) (dst : NodeId) :
    (buildRoutes localId s).lookup dst
      = if dst ≠ localId ∧ s.dist dst ≠ u32Max then some (buildRoute s localId dst (s.dist dst))
        else none := by
  have hfold := HashMap.lookup_foldl_insert_if (fun id cost => id ≠ localId ∧ cost ≠ u32Max)
    (buildRoute s localId) s.distances.entries ∅ dst s.distances.nodupKeys
  rw [show (∅ : HashMap NodeId ComputedRoute).lookup dst = none from rfl, Option.or_none] at hfold
  refine (show (buildRoutes localId s).lookup dst = _ from hfold).trans ?_
  rw [show s.distances.entries.dlookup dst = s.distances.lookup dst from rfl]
  unfold Search.dist
  cases s.distances.lookup dst with
  | some cost => rfl
  | none => exact (if_neg fun h => h.2 rfl).symm

/-- The search that `compute_routes` performs on a database. -/
def TopologyDatabase.labelsOf (db : TopologyDatabase) : Labels NodeId :=
  labels (search db.localNodeId db.nodes)

/-- The routes built from a final state with the labels of the search. -/
theorem buildRoutes_eq_some {db : TopologyDatabase} {s : Search} (hs : labels s = db.labelsOf)
    {dst : NodeId} {r : ComputedRoute} :
    (buildRoutes db.localNodeId s).lookup dst = some r ↔
      dst ≠ db.localNodeId ∧ db.labelsOf.dist dst < cap ∧ r.dstNode = dst ∧
      r.totalCost.toNat = db.labelsOf.dist dst ∧
      ∃ n, FirstHop db.labelsOf.prev db.localNodeId r.nextHop n dst ∧
        r.hopCount = UInt8.ofNat n := by
  have hinv : Labels.Inv (graph db.nodes) cap db.localNodeId (labels s) :=
    hs ▸ search_inv db.localNodeId db.nodes
  rw [← hs, labels_dist, toNat_lt_cap, buildRoutes_lookup]
  by_cases hcond : dst ≠ db.localNodeId ∧ s.dist dst ≠ u32Max
  · rw [if_pos hcond]
    -- a label below the cap comes with a chain, which `walkBack` follows
    obtain ⟨m, hchain⟩ := hinv.chain dst (toNat_lt_cap.mpr hcond.2)
    obtain ⟨w, hw⟩ := hchain.exists_firstHop hinv.src_prev hcond.1
    refine ⟨fun h => ?_, fun ⟨_, _, hdst, hcost, n, hn, hhop⟩ => ?_⟩
    · obtain rfl := Option.some.inj h
      rw [buildRoute_firstHop hinv.src_prev hw]
      exact ⟨hcond.1, hcond.2, rfl, rfl, m, hw, rfl⟩
    · rw [buildRoute_firstHop hinv.src_prev hn, ← UInt32.toNat.inj hcost, ← hhop]
      cases r
      cases hdst
      rfl
  · rw [if_neg hcond]
    exact ⟨fun h => absurd h (by simp), fun h => absurd ⟨h.1, h.2.1⟩ hcond⟩

/-- **A route is the label, the first hop and the length of the chain.** -/
theorem routes_lookup {db : TopologyDatabase} {dst : NodeId} {r : ComputedRoute} :
    db.computeRoutes.routes.lookup dst = some r ↔
      dst ≠ db.localNodeId ∧ db.labelsOf.dist dst < cap ∧ r.dstNode = dst ∧
      r.totalCost.toNat = db.labelsOf.dist dst ∧
      ∃ n, FirstHop db.labelsOf.prev db.localNodeId r.nextHop n dst ∧
        r.hopCount = UInt8.ofNat n :=
  buildRoutes_eq_some rfl

/-- A destination labelled below the cap has a route. -/
theorem exists_route {db : TopologyDatabase} {dst : NodeId} (hdst : dst ≠ db.localNodeId)
    (hlt : db.labelsOf.dist dst < cap) : ∃ r, db.computeRoutes.routes.lookup dst = some r := by
  refine ⟨buildRoute (search db.localNodeId db.nodes) db.localNodeId dst
    ((search db.localNodeId db.nodes).dist dst), ?_⟩
  show (buildRoutes _ _).lookup dst = _
  rw [buildRoutes_lookup, if_pos ⟨hdst, toNat_lt_cap.mp hlt⟩]

/-! ## Shortest paths -/

/-- A destination has a route exactly when some path of links to it costs less
than `u32::MAX`. -/
theorem exists_route_iff {db : TopologyDatabase} {dst : NodeId} (hdst : dst ≠ db.localNodeId) :
    (∃ r, db.computeRoutes.routes.lookup dst = some r) ↔
      ∃ c, (graph db.nodes).Walk db.localNodeId dst c ∧ c < u32Max.toNat := by
  rw [← (search_inv db.localNodeId db.nodes).dist_lt_iff (search_queue db.localNodeId db.nodes)]
  exact ⟨fun ⟨r, hr⟩ => (routes_lookup.mp hr).2.1, exists_route hdst⟩

/-- The cost of a route is the least cost of all paths. -/
theorem route_isLeast {db : TopologyDatabase} {dst : NodeId} {r : ComputedRoute}
    (hr : db.computeRoutes.routes.lookup dst = some r) :
    IsLeast {c | (graph db.nodes).Walk db.localNodeId dst c} r.totalCost.toNat := by
  obtain ⟨-, hlt, -, hcost, -⟩ := routes_lookup.mp hr
  rw [hcost]
  exact (search_inv db.localNodeId db.nodes).isLeast (search_queue db.localNodeId db.nodes) hlt

/-- **The routes are the shortest paths.** -/
theorem routes_shortest (db : TopologyDatabase) (dst : NodeId) (hdst : dst ≠ db.localNodeId) :
    ((∃ r, db.computeRoutes.routes.lookup dst = some r) ↔
      ∃ c, (graph db.nodes).Walk db.localNodeId dst c ∧ c < u32Max.toNat) ∧
    ∀ r, db.computeRoutes.routes.lookup dst = some r →
      IsLeast {c | (graph db.nodes).Walk db.localNodeId dst c} r.totalCost.toNat :=
  ⟨exists_route_iff hdst, fun _ hr => route_isLeast hr⟩

/-- Node 1 with a link of cost `c` to node 2 and one of cost 7 to node 3; node 2
with links of cost `c` to itself and back, and one of cost 5 to node 3. Node 3
is known only as a neighbour. -/
def sampleNodes (c : UInt32) : NodeMap :=
  let info (id : NodeId) (neighbors : List NeighborInfo) : NodeInfo :=
    { nodeId := id, sequenceNumber := 1, lastUpdated := 0
      neighbors := TopologyDatabase.neighborMap 0 neighbors }
  AList.insert 1 (info 1 [⟨2, c, none⟩, ⟨3, 7, none⟩])
    (AList.insert 2 (info 2 [⟨2, c, none⟩, ⟨1, c, none⟩, ⟨3, 5, none⟩]) ∅)

/-- The sample topology as node `id` holds it. -/
def sampleDatabase (c : UInt32) (id : NodeId) : TopologyDatabase :=
  { localNodeId := id, nodes := sampleNodes c, routes := ∅, localSequence := 1 }

/-- The detour over the free link is the shortest way from node 1 to node 3. -/
theorem routes_shortest_sample :
    (3 : NodeId) ≠ (sampleDatabase 0 1).localNodeId ∧
    IsLeast {c | (graph (sampleNodes 0)).Walk 1 3 c} 5 :=
  ⟨by decide, (routes_shortest (sampleDatabase 0 1) 3 (by decide)).2
    { dstNode := 3, nextHop := 2, totalCost := 5, hopCount := 2 } (by decide +kernel)⟩

/-! ## Forwarding -/

/-- The first hop of a route is a neighbour, and the rest of the way is a
shortest path from there. -/
theorem route_nextHop {db : TopologyDatabase} {dst : NodeId} {r : ComputedRoute}
    (hr : db.computeRoutes.routes.lookup dst = some r) :
    r.nextHop ∈ (graph db.nodes).out db.localNodeId ∧
      ∃ c, r.totalCost.toNat = linkCost db.nodes db.localNodeId r.nextHop + c ∧
        IsLeast {c | (graph db.nodes).Walk r.nextHop dst c} c := by
  have hleast := route_isLeast hr
  obtain ⟨-, -, -, hcost, n, hfirst, -⟩ := routes_lookup.mp hr
  obtain ⟨hout, c, hwalk, hdist⟩ := (search_inv db.localNodeId db.nodes).firstHop_walk
    (search_queue db.localNodeId db.nodes) hfirst
  have heq : r.totalCost.toNat = linkCost db.nodes db.localNodeId r.nextHop + c :=
    hcost.trans hdist
  rw [heq] at hleast
  exact ⟨hout, c, heq, CostGraph.isLeast_tail hout hleast hwalk⟩

/-- Two node maps with the same links at the same costs. Equal maps have this
whatever their iteration order; addresses and times play no part. -/
def SameTopology (m₁ m₂ : NodeMap) : Prop :=
  ∀ u v, ((linksOf m₁ u).lookup v).map LinkInfo.cost = ((linksOf m₂ u).lookup v).map LinkInfo.cost

theorem SameTopology.graph_eq {m₁ m₂ : NodeMap} (h : SameTopology m₁ m₂) : graph m₁ = graph m₂ := by
  have hout : (graph m₁).out = (graph m₂).out := by
    funext u
    refine Finset.ext fun v => ?_
    rw [mem_out, mem_out, ← Option.isSome_iff_exists, ← Option.isSome_iff_exists,
      ← Option.isSome_map (f := LinkInfo.cost), h u v, Option.isSome_map]
  have hcost : linkCost m₁ = linkCost m₂ := by
    funext u v
    have huv := h u v
    unfold linkCost
    cases h₁ : (linksOf m₁ u).lookup v <;> cases h₂ : (linksOf m₂ u).lookup v <;>
      simp_all
  unfold graph at hout ⊢
  rw [CostGraph.mk.injEq]
  exact ⟨hout, hcost⟩

/-- The nodes a packet for `dst` visits from `u` on, each forwarding it by its own
routes; `none` when some node has no route or `steps` do not suffice. -/
def forward (db : NodeId → TopologyDatabase) (dst : NodeId) : Nat → NodeId → Option (List NodeId)
  | 0, u => if u = dst then some [u] else none
  | steps + 1, u =>
    if u = dst then some [u]
    else
      match (db u).computeRoutes.routes.lookup dst with
      | some r => (forward db dst steps r.nextHop).map fun path => u :: path
      | none => none

theorem forward_self (db : NodeId → TopologyDatabase) (dst : NodeId) (steps : Nat) :
    forward db dst steps dst = some [dst] := by
  cases steps <;> exact if_pos rfl

/-- The sum of the link costs along a path; `none` when some link is missing. -/
def pathCost (nodes : NodeMap) : List NodeId → Option Nat
  | [] => none
  | [_] => some 0
  | u :: v :: path =>
    match (linksOf nodes u).lookup v, pathCost nodes (v :: path) with
    | some link, some c => some (link.cost.toNat + c)
    | _, _ => none

section Network

variable {db : NodeId → TopologyDatabase} {nodes : NodeMap}

/-- One hop: a node at distance `c` from `dst` has a route, over a link to a node
nearer by the cost of that link. -/
theorem exists_hop (hlocal : ∀ n, (db n).localNodeId = n)
    (hsame : ∀ n, SameTopology (db n).nodes nodes) {u dst : NodeId} {c : Nat} (hu : u ≠ dst)
    (hc : IsLeast {m | (graph nodes).Walk u dst m} c) (hcap : c < u32Max.toNat) :
    ∃ r link c', (db u).computeRoutes.routes.lookup dst = some r ∧
      (linksOf nodes u).lookup r.nextHop = some link ∧ c = link.cost.toNat + c' ∧
      IsLeast {m | (graph nodes).Walk r.nextHop dst m} c' := by
  have hgraph : graph (db u).nodes = graph nodes := (hsame u).graph_eq
  have hdst : dst ≠ (db u).localNodeId := by
    rw [hlocal]
    exact fun h => hu h.symm
  obtain ⟨r, hr⟩ := (exists_route_iff hdst).mpr ⟨c, by rw [hgraph, hlocal]; exact hc.1, hcap⟩
  have hleast := route_isLeast hr
  obtain ⟨hout, c', heq, htail⟩ := route_nextHop hr
  rw [hgraph, hlocal] at hout hleast
  rw [hgraph] at htail
  obtain ⟨link, hlink⟩ := mem_out.mp hout
  refine ⟨r, link, c', hr, hlink, ?_, htail⟩
  have hlc : linkCost (db u).nodes (db u).localNodeId r.nextHop = link.cost.toNat := by
    rw [hlocal, show linkCost (db u).nodes = linkCost nodes from congrArg CostGraph.cost hgraph,
      linkCost, hlink]
  rw [← hlc, ← heq]
  exact hc.unique hleast

/-- The whole way, by induction on the remaining distance. Every node on it is at
most as far from `dst` as its start, so the start is not met again. -/
theorem forward_reaches (hlocal : ∀ n, (db n).localNodeId = n)
    (hsame : ∀ n, SameTopology (db n).nodes nodes)
    (hcost : ∀ u v link, (linksOf nodes u).lookup v = some link → 1 ≤ link.cost.toNat)
    {dst : NodeId} (c : Nat) :
    ∀ (u : NodeId) (steps : Nat), c ≤ steps → c < u32Max.toNat →
      IsLeast {m | (graph nodes).Walk u dst m} c →
      ∃ rest, forward db dst steps u = some (u :: rest) ∧ (u :: rest).getLast? = some dst ∧
        (u :: rest).Nodup ∧ pathCost nodes (u :: rest) = some c ∧
        ∀ x ∈ u :: rest, ∃ m, m ≤ c ∧ IsLeast {m | (graph nodes).Walk x dst m} m := by
  induction c using Nat.strong_induction_on with
  | _ c ih =>
    intro u steps hsteps hcap hc
    by_cases hu : u = dst
    · subst hu
      have hzero : c = 0 := Nat.le_zero.mp (hc.2 (CostGraph.Walk.nil u))
      subst hzero
      refine ⟨[], ?_, rfl, List.nodup_singleton u, rfl, ?_⟩
      · exact forward_self db u steps
      · intro x hx
        rw [List.mem_singleton.mp hx]
        exact ⟨0, Nat.le_refl _, hc⟩
    · obtain ⟨r, link, c', hr, hlink, heq, hc'⟩ := exists_hop hlocal hsame hu hc hcap
      have hpos := hcost u r.nextHop link hlink
      obtain ⟨steps, rfl⟩ : ∃ k, steps = k + 1 := ⟨steps - 1, by omega⟩
      obtain ⟨rest, hfwd, hlast, hnd, hsum, hnear⟩ :=
        ih c' (by omega) r.nextHop steps (by omega) (by omega) hc'
      refine ⟨r.nextHop :: rest, ?_, ?_, List.nodup_cons.mpr ⟨?_, hnd⟩, ?_, ?_⟩
      · unfold forward
        rw [if_neg hu, hr]
        exact congrArg (Option.map fun path => u :: path) hfwd
      · rw [List.getLast?_cons_cons]
        exact hlast
      · -- every later node is strictly nearer to the destination than `u`
        intro hmem
        obtain ⟨m, hm, hleast⟩ := hnear u hmem
        have := hc.unique hleast
        omega
      · unfold pathCost
        rw [hlink, hsum, heq]
      · intro x hx
        rcases List.mem_cons.mp hx with rfl | hx'
        · exact ⟨c, Nat.le_refl _, hc⟩
        · obtain ⟨m, hm, hleast⟩ := hnear x hx'
          exact ⟨m, by omega, hleast⟩

end Network

/-- **Hop-by-hop forwarding is loop-free.** When all nodes hold the same topology
and no link is free, a packet for a destination that `s` has a route to is
forwarded until it arrives, visits no node twice, and the links it takes cost
what `s` computed. -/
theorem forwarding_loop_free (db : NodeId → TopologyDatabase) (nodes : NodeMap)
    (hlocal : ∀ n, (db n).localNodeId = n) (hsame : ∀ n, SameTopology (db n).nodes nodes)
    (hcost : ∀ u v link, (linksOf nodes u).lookup v = some link → 1 ≤ link.cost.toNat)
    (s dst : NodeId) (r : ComputedRoute) (hr : (db s).computeRoutes.routes.lookup dst = some r) :
    ∃ steps path, forward db dst steps s = some path ∧ path.head? = some s ∧
      path.getLast? = some dst ∧ path.Nodup ∧ pathCost nodes path = some r.totalCost.toNat := by
  have hleast := route_isLeast hr
  obtain ⟨-, hlt, -, htotal, -⟩ := routes_lookup.mp hr
  rw [(hsame s).graph_eq, hlocal] at hleast
  obtain ⟨rest, hfwd, hlast, hnd, hsum, -⟩ := forward_reaches hlocal hsame hcost
    r.totalCost.toNat s _ (Nat.le_refl _) (by rw [htotal]; exact hlt) hleast
  exact ⟨_, s :: rest, hfwd, rfl, hlast, hnd, hsum⟩

/-- A property of all links in the entries holds of every link looked up. -/
theorem forall_linksOf {nodes : NodeMap} {p : LinkInfo → Prop}
    (h : ∀ e ∈ nodes.entries, ∀ l ∈ e.2.neighbors.entries, p l.2) (u v : NodeId) (link : LinkInfo)
    (hl : (linksOf nodes u).lookup v = some link) : p link := by
  unfold linksOf at hl
  split at hl
  next info hu =>
    exact h ⟨u, info⟩ (HashMap.mem_entries_iff.mpr hu) ⟨v, link⟩ (HashMap.mem_entries_iff.mpr hl)
  next => exact absurd hl (by simp)

/-- With links of cost 1 a packet from node 1 takes the detour over node 2. -/
theorem forwarding_loop_free_sample :
    (sampleDatabase 1 1).computeRoutes.routes.lookup 3
      = some { dstNode := 3, nextHop := 2, totalCost := 6, hopCount := 2 } ∧
    ∃ steps path, forward (sampleDatabase 1) 3 steps 1 = some path ∧ path.head? = some 1 ∧
      path.getLast? = some 3 ∧ path.Nodup ∧ pathCost (sampleNodes 1) path = some 6 :=
  ⟨by decide +kernel,
    forwarding_loop_free (sampleDatabase 1) (sampleNodes 1) (fun _ => rfl) (fun _ _ _ => rfl)
      (forall_linksOf (p := fun link => 1 ≤ link.cost.toNat) (by decide +kernel)) 1 3
      { dstNode := 3, nextHop := 2, totalCost := 6, hopCount := 2 } (by decide +kernel)⟩

/-! ## The routes depend on the links only -/

/-- **Databases with the same known nodes and the same links have the same
routes**, whatever the iteration order of their maps. -/
theorem routes_congr {db₁ db₂ : TopologyDatabase} (hlocal : db₁.localNodeId = db₂.localNodeId)
    (hkeys : ∀ u, u ∈ db₁.nodes ↔ u ∈ db₂.nodes) (hsame : SameTopology db₁.nodes db₂.nodes)
    (dst : NodeId) :
    db₁.computeRoutes.routes.lookup dst = db₂.computeRoutes.routes.lookup dst := by
  have hinit : db₁.nodes.keys.toFinset = db₂.nodes.keys.toFinset := by
    refine Finset.ext fun u => ?_
    rw [List.mem_toFinset, List.mem_toFinset]
    exact hkeys u
  have hrun₁ := search_run db₁.localNodeId db₁.nodes
  rw [hsame.graph_eq, hinit, hlocal] at hrun₁
  have hlabels : db₁.labelsOf = db₂.labelsOf := by
    unfold TopologyDatabase.labelsOf
    rw [hlocal]
    exact hrun₁.unique QueueLe.antisymm (search_run db₂.localNodeId db₂.nodes)
  refine Option.ext fun r => ?_
  rw [routes_lookup, routes_lookup, hlabels, hlocal]

end MeshCore.Topology
