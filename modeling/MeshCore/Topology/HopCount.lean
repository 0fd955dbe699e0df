import MeshCore.Lib.ShortestTree
import MeshCore.Topology.Routes

/-!
# Next hops and hop counts

A route names its next hop and counts the links of the way it was read off. The
next hop is always a neighbour on a shortest path (`nextHop_shortest`). The count
is a `u8` that nothing bounds, and it is right exactly for destinations less than
256 links away in the search tree (`hopCount_exact_iff`).

Which of several shortest paths the tree contains does not follow from the
distances. It is the tree of the order that the heap settles the nodes in: nearest
first, by smaller id among equals (`searchOrder`).
-/

namespace MeshCore.Topology

open MeshCore.Lib

/-! ## The next hop -/

/-- **The next hop lies on a shortest path.** It is a neighbour of the local node,
and the cost of the link to it and the least cost from there to the destination
add up to the cost of the route. -/
theorem nextHop_shortest (db : TopologyDatabase) (dst : NodeId) (r : ComputedRoute)
    (hr : db.computeRoutes.routes.lookup dst = some r) :
    ∃ nodeInfo link c, db.nodes.lookup db.localNodeId = some nodeInfo ∧
      nodeInfo.neighbors.lookup r.nextHop = some link ∧
      IsLeast {m | (graph db.nodes).Walk r.nextHop dst m} c ∧
      link.cost.toNat + c = r.totalCost.toNat := by
  obtain ⟨hout, c, htotal, hleast⟩ := route_nextHop hr
  obtain ⟨link, hlink⟩ := mem_out.mp hout
  have hcost : linkCost db.nodes db.localNodeId r.nextHop = link.cost.toNat := by
    rw [linkCost, hlink]
  unfold linksOf at hlink
  cases hnode : db.nodes.lookup db.localNodeId with
  | none =>
    rw [hnode] at hlink
    exact absurd hlink (by simp)
  | some nodeInfo =>
    rw [hnode] at hlink
    exact ⟨nodeInfo, link, c, rfl, hlink, hleast, by rw [htotal, hcost]⟩

/-- In the sample the route to node 3 goes over the free link to node 2. -/
theorem nextHop_shortest_sample :
    ∃ nodeInfo link c, (sampleNodes 0).lookup 1 = some nodeInfo ∧
      nodeInfo.neighbors.lookup 2 = some link ∧
      IsLeast {m | (graph (sampleNodes 0)).Walk 2 3 m} c ∧ link.cost.toNat + c = 5 :=
  nextHop_shortest (sampleDatabase 0 1) 3
    { dstNode := 3, nextHop := 2, totalCost := 5, hopCount := 2 } (by decide +kernel)

/-! ## The hop count -/

/-- The walk back of `walkBack` with the additions checked: `none` when the counter
overflows. -/
def walkBackChecked (previous : HashMap NodeId NodeId) (localId : NodeId) :
    Nat → NodeId → UInt8 → Option (NodeId × UInt8)
  | 0, nextHop, hopCount => some (nextHop, hopCount)
  | fuel + 1, nextHop, hopCount =>
    match previous.lookup nextHop with
    | none => some (nextHop, hopCount)
    | some prevNode =>
      if hopCount.toNat + 1 < 2 ^ 8 then
        if prevNode = localId then some (nextHop, hopCount + 1)
        else walkBackChecked previous localId fuel prevNode (hopCount + 1)
      else none

/-- Some path over the next hop has the cost and the number of links of the route,
and the counter did not overflow when they were counted. -/
structure HopCountExact (db : TopologyDatabase) (r : ComputedRoute) : Prop where
  path : ∃ rest, pathCost db.nodes (db.localNodeId :: r.nextHop :: rest) = some r.totalCost.toNat ∧
    (r.nextHop :: rest).getLast? = some r.dstNode ∧
    (r.nextHop :: rest).length = r.hopCount.toNat
  counted : ∃ found, walkBackChecked (search db.localNodeId db.nodes).previous db.localNodeId
    (search db.localNodeId db.nodes).previous.entries.length r.dstNode 0 = some found

/-- Appending a link to a path. -/
theorem pathCost_concat {nodes : NodeMap} {u v : NodeId} {link : LinkInfo}
    (hl : (linksOf nodes u).lookup v = some link) :
    ∀ {path : List NodeId} {c : Nat}, pathCost nodes path = some c → path.getLast? = some u →
      pathCost nodes (path ++ [v]) = some (c + link.cost.toNat)
  | [], _, hc, _ => absurd hc (by simp [pathCost])
  | [x], c, hc, hlast => by
    obtain rfl : x = u := by simpa using hlast
    obtain rfl : 0 = c := Option.some.inj hc
    show pathCost nodes [x, v] = _
    unfold pathCost
    rw [hl, show pathCost nodes [v] = some 0 from rfl, Nat.add_comm]
  | x :: y :: path, c, hc, hlast => by
    unfold pathCost at hc
    split at hc
    next link' c' hlink' hc' =>
      obtain rfl := Option.some.inj hc
      have ih := pathCost_concat hl hc' (by rw [← List.getLast?_cons_cons]; exact hlast)
      show pathCost nodes (x :: y :: (path ++ [v])) = _
      unfold pathCost
      rw [hlink', show pathCost nodes (y :: (path ++ [v])) = _ from ih, Nat.add_assoc]
    next => exact absurd hc (by simp)

/-- The chain behind a first hop is a path of as many links, at the cost of the
label. -/
theorem firstHop_path {db : TopologyDatabase} {w v : NodeId} {n : Nat}
    (h : FirstHop db.labelsOf.prev db.localNodeId w n v) :
    ∃ rest, pathCost db.nodes (db.localNodeId :: w :: rest) = some (db.labelsOf.dist v) ∧
      (w :: rest).getLast? = some v ∧ (w :: rest).length = n := by
  have hinv := search_inv db.localNodeId db.nodes
  have hqueue := search_queue db.localNodeId db.nodes
  have hzero : db.labelsOf.dist db.localNodeId = 0 := hinv.src_zero
  -- a tight edge is a link at the difference of the labels
  have hlink : ∀ {u v}, db.labelsOf.prev v = some u → ∃ link : LinkInfo,
      (linksOf db.nodes u).lookup v = some link ∧
      db.labelsOf.dist v = db.labelsOf.dist u + link.cost.toNat := by
    intro u v hp
    obtain ⟨hout, hdist⟩ := hinv.prev_tight hqueue hp
    obtain ⟨link, hl⟩ := mem_out.mp hout
    refine ⟨link, hl, hdist.trans ?_⟩
    show _ + linkCost db.nodes u v = _
    rw [linkCost, hl]
    rfl
  induction h with
  | last hp =>
    obtain ⟨link, hl, hdist⟩ := hlink hp
    refine ⟨[], ?_, rfl, rfl⟩
    unfold pathCost
    rw [hl, hdist, hzero, Nat.zero_add]
    rfl
  | @back v u n hp _ _ ih =>
    obtain ⟨rest, hcost, hlast, hlen⟩ := ih
    obtain ⟨link, hl, hdist⟩ := hlink hp
    refine ⟨rest ++ [v], ?_, ?_, ?_⟩
    · rw [hdist]
      exact pathCost_concat hl hcost (by rw [List.getLast?_cons_cons]; exact hlast)
    · rw [← List.cons_append, List.getLast?_concat]
    · rw [← List.cons_append, List.length_append, hlen]
      rfl

/-- The checked walk back ends well when the counter has room for the chain. -/
theorem walkBackChecked_firstHop {previous : HashMap NodeId NodeId} {localId w v : NodeId} {n : Nat}
    (h : FirstHop (fun v => previous.lookup v) localId w n v) :
    ∀ (fuel : Nat) (hopCount : UInt8), n ≤ fuel →
      ((∃ found, walkBackChecked previous localId fuel v hopCount = some found) ↔
        hopCount.toNat + n < 2 ^ 8) := by
  induction h with
  | last hp =>
    intro fuel hopCount hle
    obtain ⟨fuel, rfl⟩ := Nat.exists_eq_add_of_le' hle
    unfold walkBackChecked
    rw [show previous.lookup w = some localId from hp]
    simp
  | @back v u n hp hne hrest ih =>
    intro fuel hopCount hle
    obtain ⟨fuel, rfl⟩ := Nat.exists_eq_add_of_le' (Nat.le_trans (Nat.le_add_left 1 n) hle)
    unfold walkBackChecked
    simp only [show previous.lookup v = some u from hp, if_neg hne]
    by_cases hroom : hopCount.toNat + 1 < 2 ^ 8
    · have hsucc : (hopCount + 1).toNat = hopCount.toNat + 1 := by
        rw [UInt8.toNat_add]
        exact Nat.mod_eq_of_lt hroom
      rw [if_pos hroom, ih fuel (hopCount + 1) (by omega), hsucc]
      omega
    · rw [if_neg hroom]
      exact ⟨fun ⟨_, h⟩ => absurd h (by simp), fun h => absurd h (by omega)⟩

/-- A route is exact when its chain fits the counter. -/
theorem hopCountExact_iff {db : TopologyDatabase} {dst : NodeId} {r : ComputedRoute} {n : Nat}
    (hr : db.computeRoutes.routes.lookup dst = some r)
    (hn : Chain db.labelsOf.prev db.localNodeId n dst) : HopCountExact db r ↔ n < 2 ^ 8 := by
  have hsrc := (search_inv db.localNodeId db.nodes).src_prev
  obtain ⟨-, -, hdst, htotal, m, hfirst, hcount⟩ := routes_lookup.mp hr
  obtain rfl := Chain.unique hsrc hn hfirst.chain
  have hfuel := firstHop_le_length hsrc hfirst
  have hchecked := walkBackChecked_firstHop hfirst _ 0 hfuel
  rw [show (0 : UInt8).toNat = 0 from rfl, Nat.zero_add] at hchecked
  refine ⟨fun h => hchecked.mp (hdst ▸ h.counted), fun hlt => ?_⟩
  obtain ⟨rest, hcost, hlast, hlen⟩ := firstHop_path hfirst
  refine ⟨⟨rest, ?_, ?_, ?_⟩, ?_⟩
  · rw [hcost, htotal]
  · rw [hlast, hdst]
  · rw [hlen, hcount, UInt8.toNat_ofNat']
    exact (Nat.mod_eq_of_lt hlt).symm
  · rw [hdst]
    exact hchecked.mpr hlt

/-! ## Depth in the search tree -/

/-- `order` is the order in which a search from `localId` settles the nodes that it
reaches below `u32::MAX`: nearest first, by smaller id among equals. -/
def IsSearchOrder (localId : NodeId) (nodes : NodeMap) (order : List NodeId) : Prop :=
  (graph nodes).SettlesAll cap QueueLe localId order

/-- A node is this many links below `localId` in the tree of the order. -/
def TreeDepth (localId : NodeId) (nodes : NodeMap) (order : List NodeId) (v : NodeId) (n : Nat) :
    Prop :=
  v ∈ order ∧ Chain ((graph nodes).treeParent localId order) localId n v

theorem QueueLe.fst_le (a b : Nat × NodeId) (h : QueueLe a b) : a.1 ≤ b.1 := by
  unfold QueueLe at h
  omega

/-- The depth of a node is the length of its chain of predecessors. -/
theorem treeDepth_iff {db : TopologyDatabase} {order : List NodeId}
    (horder : IsSearchOrder db.localNodeId db.nodes order) {v : NodeId} {n : Nat} :
    TreeDepth db.localNodeId db.nodes order v n ↔
      db.labelsOf.dist v < cap ∧ Chain db.labelsOf.prev db.localNodeId n v := by
  have hinv : Labels.Inv (graph db.nodes) cap db.localNodeId db.labelsOf :=
    search_inv db.localNodeId db.nodes
  obtain ⟨order', hall, hmem, hprev⟩ :=
    (search_run db.localNodeId db.nodes).settlesAll QueueLe.fst_le
  obtain rfl := CostGraph.SettlesAll.unique QueueLe.antisymm horder hall
  -- the vertices of a chain are all below the cap, where the two maps agree
  have hback : ∀ v u, v ∈ order → db.labelsOf.prev v = some u → u ∈ order := by
    intro v u _ hp
    obtain ⟨-, hsum, hlt⟩ := hinv.back v u hp
    exact (hmem u).mpr (Nat.lt_of_le_of_lt (Nat.le_trans (Nat.le_add_right ..) hsum) hlt)
  constructor
  · rintro ⟨hv, hchain⟩
    refine ⟨(hmem v).mp hv, hchain.congr (fun u hu => (hprev u hu).symm) ?_ hv⟩
    exact fun x u hx hp => hback x u hx ((hprev x hx).trans hp)
  · rintro ⟨hlt, hchain⟩
    have hv := (hmem v).mpr hlt
    exact ⟨hv, hchain.congr hprev hback hv⟩

/-- The search order exists. -/
theorem exists_isSearchOrder (db : TopologyDatabase) :
    ∃ order, IsSearchOrder db.localNodeId db.nodes order := by
  obtain ⟨order, hall, -⟩ := (search_run db.localNodeId db.nodes).settlesAll QueueLe.fst_le
  exact ⟨order, hall⟩

/-- **The hop count is exact up to 255 links.** The route to a destination, if there
is one, has an exact hop count if and only if the destination is less than 256
links deep in the search tree. -/
theorem hopCount_exact_iff (db : TopologyDatabase) (dst : NodeId) :
    (∀ r, db.computeRoutes.routes.lookup dst = some r → HopCountExact db r) ↔
      ∀ order n, IsSearchOrder db.localNodeId db.nodes order →
        TreeDepth db.localNodeId db.nodes order dst n → n < 2 ^ 8 := by
  have hinv := search_inv db.localNodeId db.nodes
  constructor
  · intro h order n horder hdepth
    obtain ⟨hlt, hchain⟩ := (treeDepth_iff horder).mp hdepth
    by_cases hdst : dst = db.localNodeId
    · -- the local node is the root
      subst hdst
      rw [Chain.unique hinv.src_prev hchain Chain.here]
      exact Nat.two_pow_pos 8
    · obtain ⟨r, hr⟩ := exists_route hdst hlt
      exact (hopCountExact_iff hr hchain).mp (h r hr)
  · intro h r hr
    obtain ⟨-, hlt, -, -, n, hfirst, -⟩ := routes_lookup.mp hr
    obtain ⟨order, horder⟩ := exists_isSearchOrder db
    have hdepth := (treeDepth_iff horder).mpr ⟨hlt, hfirst.chain⟩
    exact (hopCountExact_iff hr hfirst.chain).mpr (h order n horder hdepth)

/-! ## A line of 257 nodes -/

/-- Nodes `0` to `n`, each with a link of cost 1 to the next; the last is known only
as a neighbour. -/
def lineNodes : Nat → NodeMap
  | 0 => ∅
  | n + 1 =>
    (lineNodes n).insert (UInt64.ofNat n)
      { nodeId := UInt64.ofNat n, sequenceNumber := 1, lastUpdated := 0
        neighbors := AList.insert (UInt64.ofNat (n + 1))
          { cost := 1, addr := none, lastSeen := 0 } ∅ }

/-- The line of `n` links as node 0 holds it. -/
def lineDatabase (n : Nat) : TopologyDatabase :=
  { localNodeId := 0, nodes := lineNodes n, routes := ∅, localSequence := 1 }

/-- The links of the line: from each node to the next, at cost 1. -/
theorem lineNodes_link {n : Nat} (hn : n < 2 ^ 64) {u v : NodeId} {link : LinkInfo} :
    (linksOf (lineNodes n) u).lookup v = some link ↔
      u.toNat < n ∧ v = UInt64.ofNat (u.toNat + 1) ∧
        link = { cost := 1, addr := none, lastSeen := 0 } := by
  induction n with
  | zero => exact ⟨fun h => absurd h (by simp [linksOf, lineNodes]), fun h => absurd h.1 (by simp)⟩
  | succ n ih =>
    have hofNat : (UInt64.ofNat n).toNat = n := UInt64.toNat_ofNat_of_lt' (Nat.lt_of_succ_lt hn)
    unfold lineNodes linksOf
    rw [HashMap.lookup_insert_ite]
    by_cases hu : u = UInt64.ofNat n
    · subst hu
      rw [if_pos rfl, HashMap.lookup_insert_ite, hofNat]
      simp only [AList.lookup_empty, Option.ite_none_right_eq_some, Option.some.injEq]
      constructor
      · rintro ⟨rfl, rfl⟩
        exact ⟨Nat.lt_succ_self n, rfl, rfl⟩
      · rintro ⟨-, rfl, rfl⟩
        exact ⟨rfl, rfl⟩
    · rw [if_neg hu]
      refine (ih (by omega)).trans (and_congr_left fun _ => ?_)
      have hne : u.toNat ≠ n := fun he => hu (UInt64.toNat.inj (he.trans hofNat.symm))
      omega

/-- A walk along the line from node 0 costs as much as the number of its end. -/
theorem lineNodes_walk {n : Nat} (hn : n < 2 ^ 64) {v : NodeId} {c : Nat}
    (h : (graph (lineNodes n)).Walk 0 v c) : v.toNat = c := by
  induction h with
  | nil => rfl
  | @snoc b v c _ hv ih =>
    obtain ⟨link, hl⟩ := mem_out.mp hv
    obtain ⟨hlt, rfl, rfl⟩ := (lineNodes_link hn).mp hl
    have hcost : (graph (lineNodes n)).cost b (UInt64.ofNat (b.toNat + 1)) = 1 := by
      show linkCost _ _ _ = 1
      rw [linkCost, hl]
      rfl
    rw [hcost, UInt64.toNat_ofNat_of_lt' (Nat.lt_of_le_of_lt hlt hn), ih]

/-- Every node of the line can be walked to. -/
theorem exists_lineNodes_walk {n : Nat} (hn : n < 2 ^ 64) :
    ∀ {k : Nat}, k ≤ n → ∃ c, (graph (lineNodes n)).Walk 0 (UInt64.ofNat k) c
  | 0, _ => ⟨0, CostGraph.Walk.nil 0⟩
  | k + 1, hk => by
    obtain ⟨c, hw⟩ := exists_lineNodes_walk hn (Nat.le_of_succ_le hk)
    have hofNat : (UInt64.ofNat k).toNat = k := UInt64.toNat_ofNat_of_lt' (Nat.lt_trans hk hn)
    refine ⟨_, hw.snoc (mem_out.mpr ⟨_, (lineNodes_link hn).mpr ⟨?_, ?_, rfl⟩⟩)⟩
    · rw [hofNat]
      exact hk
    · rw [hofNat]

/-- On the line a path has as many links as its cost says. -/
theorem lineNodes_pathCost {n : Nat} (hn : n < 2 ^ 64) :
    ∀ {path : List NodeId} {c : Nat}, pathCost (lineNodes n) path = some c → path.length = c + 1
  | [], _, h => absurd h (by simp [pathCost])
  | [_], c, h => by
    obtain rfl : 0 = c := Option.some.inj h
    rfl
  | u :: v :: path, c, h => by
    unfold pathCost at h
    split at h
    next link c' hl hc =>
      obtain rfl := Option.some.inj h
      obtain ⟨-, -, rfl⟩ := (lineNodes_link hn).mp hl
      rw [List.length_cons, lineNodes_pathCost hn hc]
      exact congrArg (· + 1) (Nat.add_comm ..)
    next => exact absurd h (by simp)

/-- At the end of a line of 256 links the counter has wrapped to zero. -/
theorem hopCount_wraps : ∃ r, (lineDatabase 256).computeRoutes.routes.lookup 256 = some r ∧
    r.totalCost = 256 ∧ r.hopCount = 0 ∧ ¬ HopCountExact (lineDatabase 256) r := by
  obtain ⟨c, hw⟩ := exists_lineNodes_walk (n := 256) (by decide) (Nat.le_refl _)
  have hc : 256 = c := lineNodes_walk (by decide) hw
  subst hc
  have hne : (256 : NodeId) ≠ (lineDatabase 256).localNodeId := by decide
  obtain ⟨r, hr⟩ := (exists_route_iff hne).mpr ⟨256, hw, by decide⟩
  have htotal : r.totalCost.toNat = 256 := (lineNodes_walk (by decide) (route_isLeast hr).1).symm
  -- a path at cost 256 has 256 links
  have hlinks : ∀ rest, pathCost (lineNodes 256) (0 :: r.nextHop :: rest) = some r.totalCost.toNat →
      (r.nextHop :: rest).length = 256 := by
    intro rest h
    have := lineNodes_pathCost (by decide) h
    rw [htotal, List.length_cons] at this
    exact Nat.succ.inj this
  obtain ⟨-, -, -, hdist, n, hfirst, hcount⟩ := routes_lookup.mp hr
  obtain ⟨rest, hcost, -, hlen⟩ := firstHop_path hfirst
  rw [← hdist] at hcost
  obtain rfl : 256 = n := (hlinks rest hcost).symm.trans hlen
  refine ⟨r, hr, UInt32.toNat.inj htotal, hcount, fun hexact => ?_⟩
  obtain ⟨rest', hcost', -, hlen'⟩ := hexact.path
  have hsmall := r.hopCount.toNat_lt
  rw [← hlen', hlinks rest' hcost'] at hsmall
  exact Nat.lt_irrefl _ hsmall

end MeshCore.Topology
