import MeshCore.Network.Delivery
import MeshCore.Routing.Tasks
import MeshCore.Topology.Views

/-!
# From link state to delivery

A converged part of a mesh: its nodes have one topology without free links, their routing
tables follow the routes they computed from it, and each has a session with each of its
neighbours. There the routes of the nodes fit together: from any of them, the next hops
lead to the destination along a shortest path (`Converged.exists_route`). The flooding of
advertisements makes the topologies the same (`Converged.ofHeard`), so once all have heard
the last advertisement of all, every flow for which its source has a route is delivered in
order, along a path of the cost the source computed (`heard_mesh_delivers`).
-/

namespace MeshCore.Network

open MeshCore.Lib MeshCore.Wire MeshCore.Session
open MeshCore.Topology
open MeshCore.Routing

/-- The members of a mesh have one topology, and routes and sessions for it. -/
structure Converged (members : Set NodeId) (dbs : NodeId → TopologyDatabase)
    (peer : SessionEnd → NodeId) (manager : NodeId → SessionManager) : Prop where
  localNode : ∀ n ∈ members, (dbs n).localNodeId = n
  settled : ∀ n ∈ members, Settled (dbs n)
  sameTopology : ∀ u ∈ members, ∀ v ∈ members, SameTopology (dbs u).nodes (dbs v).nodes
  notFree : ∀ u ∈ members, ∀ v w link, (linksOf (dbs u).nodes v).lookup w = some link →
    1 ≤ link.cost.toNat
  table : ∀ n ∈ members, (manager n).routingTable.localNodeId = n ∧
    (manager n).routingTable.Follows (dbs n).routes
  /-- A neighbour is a member, and there is a session with it. -/
  session : ∀ u ∈ members, ∀ v link, (linksOf (dbs u).nodes u).lookup v = some link →
    v ∈ members ∧ ∃ messageTx, (manager u).sessions.lookup v = some messageTx ∧
      peer (u, messageTx) = v

section Converged

variable {members : Set NodeId} {dbs : NodeId → TopologyDatabase}
  {peer : SessionEnd → NodeId} {manager : NodeId → SessionManager}

/-- One hop: a member at distance `c` from `dst` sends the messages for it over a session
to a member nearer by the cost of the link. -/
theorem Converged.hop (h : Converged members dbs peer manager)
    {s u dst : NodeId} (hs : s ∈ members) (hu : u ∈ members) (hne : u ≠ dst)
    {c : Nat} (hc : IsLeast {m | (graph (dbs s).nodes).Walk u dst m} c) (hcap : c < u32Max.toNat) :
    ∃ messageTx link c', peer (u, messageTx) ∈ members ∧
      (linksOf (dbs s).nodes u).lookup (peer (u, messageTx)) = some link ∧
      c = link.cost.toNat + c' ∧
      IsLeast {m | (graph (dbs s).nodes).Walk (peer (u, messageTx)) dst m} c' ∧
      ∀ src corrId, Flow.LeadsTo ⟨src, dst, corrId⟩ (manager u) messageTx := by
  classical
  -- nodes that are no members play no part
  let dbs' : NodeId → TopologyDatabase := fun n =>
    if n ∈ members then dbs n else { dbs s with localNodeId := n }
  have hin : dbs' u = dbs u := if_pos hu
  have hlocal' : ∀ n, (dbs' n).localNodeId = n := by
    intro n
    by_cases hn : n ∈ members
    · rw [show dbs' n = dbs n from if_pos hn]
      exact h.localNode n hn
    · rw [show dbs' n = { dbs s with localNodeId := n } from if_neg hn]
  have hsame' : ∀ n, SameTopology (dbs' n).nodes (dbs s).nodes := by
    intro n
    by_cases hn : n ∈ members
    · rw [show dbs' n = dbs n from if_pos hn]
      exact h.sameTopology n hn s hs
    · rw [show dbs' n = { dbs s with localNodeId := n } from if_neg hn]
      exact h.sameTopology s hs s hs
  obtain ⟨r, link, c', hr, hlink, heq, hleast⟩ := exists_hop hlocal' hsame' hne hc hcap
  rw [hin, h.settled u hu] at hr
  -- the link is one of the node's own entry, which has a session for it
  have hown := h.sameTopology s hs u hu u r.nextHop
  rw [hlink, Option.map_some] at hown
  obtain ⟨link', hlink', -⟩ := Option.map_eq_some_iff.mp hown.symm
  obtain ⟨hmember, messageTx, hsession, hpeer⟩ := h.session u hu r.nextHop link' hlink'
  obtain ⟨htable, hfollows⟩ := h.table u hu
  refine ⟨messageTx, link, c', hpeer.symm ▸ hmember, hpeer.symm ▸ hlink, heq,
    hpeer.symm ▸ hleast, ?_⟩
  intro src corrId
  have hroute := hfollows dst
  rw [hr, Option.map_some] at hroute
  exact ⟨_, RoutingTable.decide_single (fun hdst => hne (htable.symm.trans hdst.symm))
    (by decide : (64 : UInt8) ≠ 0) hroute, hsession⟩

/-- The path the next hops lead along, by induction on the distance. Every node on it is at
most as far from `dst` as its start, so the start is not met again. -/
theorem Converged.exists_path (h : Converged members dbs peer manager)
    {s dst : NodeId} (hs : s ∈ members) (c : Nat) :
    ∀ u ∈ members, c < u32Max.toNat → IsLeast {m | (graph (dbs s).nodes).Walk u dst m} c →
      ∃ hops, Leads peer u hops dst ∧ (hops.map Prod.fst ++ [dst]).Nodup ∧
        pathCost (dbs s).nodes (hops.map Prod.fst ++ [dst]) = some c ∧
        (∀ x ∈ hops.map Prod.fst ++ [dst], ∃ m, m ≤ c ∧
          IsLeast {m | (graph (dbs s).nodes).Walk x dst m} m) ∧
        ∀ e ∈ hops, e.1 ∈ members ∧
          ∀ src corrId, Flow.LeadsTo ⟨src, dst, corrId⟩ (manager e.1) e.2 := by
  induction c using Nat.strong_induction_on with
  | _ c ih =>
    intro u hu hcap hc
    by_cases hne : u = dst
    · subst hne
      obtain rfl : c = 0 := Nat.le_zero.mp (hc.2 (CostGraph.Walk.nil u))
      refine ⟨[], rfl, List.nodup_singleton u, rfl, ?_, by simp⟩
      intro x hx
      rw [List.mem_singleton.mp hx]
      exact ⟨0, Nat.le_refl _, hc⟩
    · obtain ⟨messageTx, link, c', hmember, hlink, heq, hc', hleads⟩ := h.hop hs hu hne hc hcap
      have hpos := h.notFree s hs u _ link hlink
      obtain ⟨hops, hlead, hnd, hsum, hnear, hall⟩ := ih c' (by omega) _ hmember (by omega) hc'
      refine ⟨(u, messageTx) :: hops, ⟨rfl, hlead⟩, List.nodup_cons.mpr ⟨?_, hnd⟩, ?_, ?_, ?_⟩
      · -- every later node is strictly nearer to the destination than `u`
        intro hmem
        obtain ⟨m, hm, hleast⟩ := hnear u hmem
        have := hc.unique hleast
        omega
      · obtain ⟨rest, hrest⟩ :
            ∃ rest, hops.map Prod.fst ++ [dst] = peer (u, messageTx) :: rest := by
          cases hops with
          | nil => exact ⟨[], by rw [show peer (u, messageTx) = dst from hlead]; rfl⟩
          | cons e hops => exact ⟨hops.map Prod.fst ++ [dst], by rw [← hlead.1]; rfl⟩
        rw [List.map_cons, List.cons_append, hrest]
        rw [hrest] at hsum
        unfold pathCost
        rw [hlink, hsum, heq]
      · intro x hx
        rcases List.mem_cons.mp hx with rfl | hx'
        · exact ⟨c, Nat.le_refl _, hc⟩
        · obtain ⟨m, hm, hleast⟩ := hnear x hx'
          exact ⟨m, by omega, hleast⟩
      · intro e he
        rcases List.mem_cons.mp he with rfl | he'
        · exact ⟨hu, hleads⟩
        · exact hall e he'

/-- **The routes fit together**: from a member with a route, the next hops lead to its
destination, over links that cost what the member computed. -/
theorem Converged.exists_route (h : Converged members dbs peer manager)
    {src dst : NodeId} (hsrc : src ∈ members) {r : ComputedRoute}
    (hr : (dbs src).routes.lookup dst = some r) :
    ∃ route : Route peer src dst,
      pathCost (dbs src).nodes (route.hops.map Prod.fst ++ [dst]) = some r.totalCost.toNat ∧
      ∀ e ∈ route.hops, e.1 ∈ members ∧
        ∀ corrId, Flow.LeadsTo ⟨src, dst, corrId⟩ (manager e.1) e.2 := by
  rw [← h.settled src hsrc] at hr
  have hleast := route_isLeast hr
  obtain ⟨-, hlt, -, htotal, -⟩ := routes_lookup.mp hr
  rw [h.localNode src hsrc] at hleast
  obtain ⟨hops, hlead, hnd, hsum, -, hall⟩ :=
    h.exists_path hsrc _ src hsrc (by rw [htotal]; exact hlt) hleast
  exact ⟨⟨hops, hlead, hnd⟩, hsum, fun e he => ⟨(hall e he).1, (hall e he).2 src⟩⟩

end Converged

/-! ## From what is heard to what is delivered -/

/-- The routes of a database are always those of its entries. -/
theorem gossip_settled (events : List FloodEvent) (v : NodeId) :
    Settled ((Gossip.new.run events).dbs v) := by
  have hstep : ∀ (g : Gossip) event, (∀ v, Settled (g.dbs v)) →
      ∀ v, Settled ((g.step event).dbs v) := by
    intro g event h
    cases event with
    | issue node now neighbors =>
      refine (Function.forall_update_iff g.dbs fun _ db => Settled db).mpr ⟨?_, fun v _ => h v⟩
      exact settled_computeRoutes _
    | receive node now copy =>
      unfold Gossip.step
      dsimp only
      split
      next u _ =>
        refine (Function.forall_update_iff g.dbs fun _ db => Settled db).mpr ⟨?_, fun v _ => h v⟩
        exact settled_process (h node) now u
      next => exact h
  have hrun : ∀ g : Gossip, (∀ v, Settled (g.dbs v)) → ∀ v, Settled ((g.run events).dbs v) := by
    induction events with
    | nil => exact fun _ h => h
    | cons event events ih => exact fun g h => ih (g.step event) (hstep g event h)
  exact hrun .new settled_new v

/-- Links are as free as they were advertised. -/
theorem gossip_notFree {base : NodeId → UInt64} {g : Gossip} (h : Told base g)
    (hcost : ∀ u ∈ g.copies, ∀ n ∈ u.neighbors, 1 ≤ n.cost.toNat) (v o w : NodeId)
    (link : LinkInfo) (hlink : (linksOf (g.dbs v).nodes o).lookup w = some link) :
    1 ≤ link.cost.toNat := by
  unfold linksOf at hlink
  split at hlink
  next info hinfo =>
    obtain ⟨u, hu, -, now, rfl⟩ := h.entry v o info hinfo
    have hneighbor := (neighborMap_lookup now u.neighbors w).symm.trans hlink
    obtain ⟨n, hfind, rfl⟩ := Option.map_eq_some_iff.mp hneighbor
    exact hcost u hu n (List.mem_reverse.mp (List.mem_of_find?_eq_some hfind))
  next => exact absurd hlink (by simp)

/-- Members that have heard everyone have converged. -/
theorem Converged.ofHeard {peer : SessionEnd → NodeId} {manager : NodeId → SessionManager}
    {events : List FloodEvent} (hwindow : InWindow (Gossip.new.run events).copies)
    (hcost : ∀ u ∈ (Gossip.new.run events).copies, ∀ n ∈ u.neighbors, 1 ≤ n.cost.toNat)
    {members : Set NodeId} (hheard : ∀ v ∈ members, ∀ o, Heard events v o)
    (htable : ∀ n ∈ members, (manager n).routingTable.localNodeId = n ∧
      (manager n).routingTable.Follows ((Gossip.new.run events).dbs n).routes)
    (hsession : ∀ u ∈ members, ∀ v link,
      (linksOf ((Gossip.new.run events).dbs u).nodes u).lookup v = some link →
      v ∈ members ∧ ∃ messageTx, (manager u).sessions.lookup v = some messageTx ∧
        peer (u, messageTx) = v) :
    Converged members (Gossip.new.run events).dbs peer manager := by
  choose base len hlen hwindow using hwindow
  have hrank : ∀ u ∈ (Gossip.new.run events).copies, rank base u < 2 ^ 63 := fun u hu =>
    Nat.lt_trans (hwindow u.originatorNode u hu rfl) (hlen u.originatorNode)
  have htold := (told_new base).run events hrank
  exact ⟨fun n _ => htold.localNodeId n, fun n _ => gossip_settled events n,
    fun u hu v hv => Told.sameTopology hrank (hheard u hu) (hheard v hv),
    fun u _ => gossip_notFree htold hcost u, htable, hsession⟩

/-- **From advertisements to delivery.** Nodes flood advertisements of links that are not
free. When the members of a mesh have received, in time, the last advertisement of every
node, when their tables follow their routes and they have a session with every neighbour,
then any of them that has a route to a destination has a path of sessions there, of the cost
it computed, along which every flow of clean messages is delivered: in every further run
that leaves the tables and sessions on the path, in order, each message once and unchanged,
and to nobody else. -/
theorem heard_mesh_delivers (env : SessionEnv) (hread : ReadsBack env.crates env.fromReader)
    (events : List FloodEvent) (hwindow : InWindow (Gossip.new.run events).copies)
    (hcost : ∀ u ∈ (Gossip.new.run events).copies, ∀ n ∈ u.neighbors, 1 ≤ n.cost.toNat)
    {peer : SessionEnd → NodeId} {manager : NodeId → SessionManager}
    (hlocal : ∀ n, (manager n).localNodeId = n) (members : Set NodeId)
    (hheard : ∀ v ∈ members, ∀ o, Heard events v o)
    (htable : ∀ n ∈ members, (manager n).routingTable.localNodeId = n ∧
      (manager n).routingTable.Follows ((Gossip.new.run events).dbs n).routes)
    (hsession : ∀ u ∈ members, ∀ v link,
      (linksOf ((Gossip.new.run events).dbs u).nodes u).lookup v = some link →
      v ∈ members ∧ ∃ messageTx, (manager u).sessions.lookup v = some messageTx ∧
        peer (u, messageTx) = v)
    (F : Flow) (hsrc : F.src ∈ members) (r : ComputedRoute)
    (hr : ((Gossip.new.run events).dbs F.src).routes.lookup F.dst = some r) :
    ∃ route : Route peer F.src F.dst,
      pathCost ((Gossip.new.run events).dbs F.src).nodes (route.hops.map Prod.fst ++ [F.dst])
        = some r.totalCost.toNat ∧
      ∀ steps : List MeshStep, (∀ a ∈ steps, a.Respects env F route.hops) →
        F.handed (Mesh.run env peer manager steps) F.dst <+: steps.filterMap F.submitted ∧
        (F.Idle env route (Mesh.run env peer manager steps) →
          F.handed (Mesh.run env peer manager steps) F.dst = steps.filterMap F.submitted) ∧
        ∀ n, n ≠ F.dst → F.handed (Mesh.run env peer manager steps) n = [] := by
  obtain ⟨route, hpath, hleads⟩ :=
    (Converged.ofHeard hwindow hcost hheard htable hsession).exists_route hsrc hr
  refine ⟨route, hpath, fun steps hsteps => ?_⟩
  obtain ⟨hinv, hline⟩ : F.Inv env route _ ∧ inLine route.line _ = _ :=
    Flow.Inv.ofRun hread hlocal (fun e he => (hleads e he).2 F.corrId) hsteps
  rw [← hline]
  exact Flow.handed_of_line hinv

theorem updateRoutesFromTopology_localNodeId (t : RoutingTable)
    (computed : HashMap NodeId ComputedRoute) :
    (t.updateRoutesFromTopology computed).localNodeId = t.localNodeId :=
  List.foldlRecOn (motive := fun t' : RoutingTable => t'.localNodeId = t.localNodeId)
    computed.entries (fun t e => t.insertRoute e.1 e.2) rfl fun _ h _ _ => h

/-- A table that is updated without interruption follows the routes. -/
theorem follows_updateRoutesFromTopology {t : RoutingTable}
    (hlocal : t.routes.lookup t.localNodeId = none) (computed : HashMap NodeId ComputedRoute) :
    (t.updateRoutesFromTopology computed).Follows computed := by
  have hroutes : ∀ (l : List (Sigma fun _ : NodeId => ComputedRoute)) (t : RoutingTable),
      (l.foldl (fun t e => t.insertRoute e.1 e.2) t).routes
        = l.foldl (fun m e => if True then m.insert e.1 (hopSetOf e.2) else m) t.routes := by
    intro l
    induction l with
    | nil => exact fun _ => rfl
    | cons e l ih => exact fun t => ih (t.insertRoute e.1 e.2)
  intro dst
  unfold RoutingTable.updateRoutesFromTopology RoutingTable.bumpEpoch
  dsimp only
  rw [hroutes, HashMap.lookup_foldl_insert_if (fun _ _ => True) (fun _ r => hopSetOf r) _ _ _
    computed.nodupKeys]
  have hcleared : t.retainLocal.routes.lookup dst = none := by
    show (t.routes.retain _).lookup dst = none
    rw [HashMap.lookup_retain]
    by_cases hdst : dst = t.localNodeId
    · rw [hdst, hlocal]
      simp
    · simp [hdst]
  rw [hcleared, Option.or_none, show computed.entries.dlookup dst = computed.lookup dst from rfl]
  cases computed.lookup dst with
  | none => rfl
  | some r => rfl

/-- Node 1 advertises a link to node 2, and node 2 one to node 3; all hear of both. -/
def chainEvents : List FloodEvent :=
  [.issue 1 100 [⟨2, 1, none⟩], .issue 2 100 [⟨3, 1, none⟩], .receive 2 101 0, .receive 3 101 0,
    .receive 1 101 1, .receive 3 101 1]

/-- The channel of a session has the number of the node at the other end. -/
def chainPeer (e : SessionEnd) : NodeId := UInt64.ofNat e.2

/-- The manager of a node that has heard of both links. -/
def chainManager (n : NodeId) : SessionManager :=
  { localNodeId := n
    routingTable := (RoutingTable.new n fun _ _ _ => 0).updateRoutesFromTopology
      ((Gossip.new.run chainEvents).dbs n).routes
    sessions := AList.insert 2 2 (AList.insert 3 3 ∅) }

theorem chain_copies : ∀ u ∈ (Gossip.new.run chainEvents).copies,
    (u.originatorNode = 1 ∨ u.originatorNode = 2) ∧ (u.sequenceNumber - 0).toNat < 2 ∧
      ∀ n ∈ u.neighbors, 1 ≤ n.cost.toNat := by decide +kernel

theorem chain_told : Told (fun _ => 0) (Gossip.new.run chainEvents) := by
  refine (told_new _).run _ fun u hu => ?_
  have hlt : rank (fun _ => 0) u < 2 := (chain_copies u hu).2.1
  omega

theorem chain_heard : ∀ v ∈ ({1, 2, 3} : Set NodeId), ∀ o, Heard chainEvents v o := by
  have hseq₁ : ∀ own, ((Gossip.new.run chainEvents).dbs 1).nodes.lookup 1 = some own →
      own.sequenceNumber = 1 := by decide +kernel
  have hseq₂ : ∀ own, ((Gossip.new.run chainEvents).dbs 2).nodes.lookup 2 = some own →
      own.sequenceNumber = 1 := by decide +kernel
  intro v hv o own hown
  obtain ⟨u, hu, rfl, -⟩ := chain_told.sent o o own hown
  rcases (chain_copies u hu).1 with ho | ho
  · rw [ho] at hown ⊢
    rcases hv with rfl | rfl | rfl
    · exact .inl rfl
    · exact .inr ⟨chainEvents.take 2, 101, 0, chainEvents.drop 3, _, rfl, rfl, rfl,
        (hseq₁ own hown).symm, by decide⟩
    · exact .inr ⟨chainEvents.take 3, 101, 0, chainEvents.drop 4, _, rfl, rfl, rfl,
        (hseq₁ own hown).symm, by decide⟩
  · rw [ho] at hown ⊢
    rcases hv with rfl | rfl | rfl
    · exact .inr ⟨chainEvents.take 4, 101, 1, chainEvents.drop 5, _, rfl, rfl, rfl,
        (hseq₂ own hown).symm, by decide⟩
    · exact .inl rfl
    · exact .inr ⟨chainEvents.take 5, 101, 1, [], _, rfl, rfl, rfl, (hseq₂ own hown).symm,
        by decide⟩

theorem chain_session : ∀ u ∈ ({1, 2, 3} : Set NodeId), ∀ v link,
    (linksOf ((Gossip.new.run chainEvents).dbs u).nodes u).lookup v = some link →
    v ∈ ({1, 2, 3} : Set NodeId) ∧ ∃ messageTx,
      (chainManager u).sessions.lookup v = some messageTx ∧ chainPeer (u, messageTx) = v := by
  have h₁ : ∀ l ∈ (linksOf ((Gossip.new.run chainEvents).dbs 1).nodes 1).entries, l.1 = 2 := by
    decide +kernel
  have h₂ : ∀ l ∈ (linksOf ((Gossip.new.run chainEvents).dbs 2).nodes 2).entries, l.1 = 3 := by
    decide +kernel
  have h₃ : ∀ l ∈ (linksOf ((Gossip.new.run chainEvents).dbs 3).nodes 3).entries, False := by
    decide +kernel
  intro u hu v link hlink
  have hmem := HashMap.mem_entries_iff.mpr hlink
  rcases hu with rfl | rfl | rfl
  · obtain rfl : v = 2 := h₁ _ hmem
    exact ⟨by simp, 2, rfl, rfl⟩
  · obtain rfl : v = 3 := h₂ _ hmem
    exact ⟨by simp, 3, rfl, rfl⟩
  · exact absurd (h₃ _ hmem) id

/-- Node 1 has a path to node 3, and what it sends arrives there. -/
theorem heard_mesh_delivers_chain : ∃ route : Route chainPeer 1 3,
    pathCost ((Gossip.new.run chainEvents).dbs 1).nodes (route.hops.map Prod.fst ++ [3]) = some 2 ∧
    Flow.handed ⟨1, 3, 9⟩ (Mesh.run lineEnv chainPeer chainManager [.submit 1 greeting]) 3
      <+: [contents greeting] := by
  have hclean : Clean lineEnv greeting := by
    obtain ⟨bytes, hbytes⟩ := exists_of_isOk
      (by decide +kernel : (buildDataFrame oneHeaderCrates greeting).isOk = true)
    exact ⟨rfl, rfl, by decide, bytes, hbytes⟩
  obtain ⟨route, hpath, hruns⟩ := heard_mesh_delivers lineEnv oneHeader_readsBack chainEvents
    (fun o => ⟨0, 2, by decide, fun u hu _ => (chain_copies u hu).2.1⟩)
    (fun u hu => (chain_copies u hu).2.2) (fun _ => rfl) {1, 2, 3} chain_heard
    (fun n _ => ⟨updateRoutesFromTopology_localNodeId .., follows_updateRoutesFromTopology rfl _⟩)
    chain_session ⟨1, 3, 9⟩ (by simp) ⟨3, 2, 2, 2⟩ (by decide +kernel)
  refine ⟨route, hpath, (hruns [.submit 1 greeting] ?_).1⟩
  intro a ha
  rw [List.mem_singleton.mp ha]
  exact ⟨rfl, fun _ => hclean⟩

end MeshCore.Network
