import MeshCore.Topology.Routes

/-!
# The routing table (`mesh-routing`)

`RoutingTable` maps destinations to sets of equal-cost next hops, and `decide`
is its use: deliver here, forward over a hop of the set, or drop. This file is
the model. The table is filled from the topology database by
`update_routes_from_topology`, in steps that are not one critical section;
`Routing/Tasks.lean` has the concurrent part.

Mirroring notes:
- `DashMap` and `HashSet` are the association lists and lists of the library,
  whose order is the iteration order.
- `DefaultHasher` does not specify its algorithm, so what it makes of the three
  values that `select_hop` feeds it is a field of the selector.
- The counters and statistics are left out: no decision reads them.
-/

namespace MeshCore.Routing

open MeshCore.Lib
open MeshCore.Topology (NodeId ComputedRoute TopologyDatabase)

/-! ## Next hops (`next_hop.rs`) -/

/-- `NextHop`. -/
structure NextHop where
  nodeId : NodeId
  cost : UInt32
  interface : Option String
  deriving Repr, DecidableEq

/-- `NextHop::new`. -/
def NextHop.new (nodeId : NodeId) (cost : UInt32) : NextHop :=
  { nodeId, cost, interface := none }

/-- `HopSet`. -/
structure HopSet where
  hops : List NextHop
  cost : UInt32
  deriving Repr, DecidableEq

/-- `HopSet::single`. -/
def HopSet.single (hop : NextHop) : HopSet := { hops := [hop], cost := hop.cost }

/-! ## Equal-cost selection (`ecmp.rs`) -/

/-- `EcmpSelector`; `hash` is the hash of the seed, the destination and the
correlation ID, in this order. -/
structure EcmpSelector where
  hashSeed : UInt64
  hash : UInt64 → UInt64 → UInt64 → UInt64

/-- `select_hop`. -/
def EcmpSelector.selectHop (s : EcmpSelector) (hopSet : HopSet) (dstNode corrId : UInt64) :
    Option NextHop :=
  if hopSet.hops.isEmpty then none
  else
    -- sorted by node ID, for a selection that does not depend on the set's order
    let hops := hopSet.hops.mergeSort fun a b => a.nodeId ≤ b.nodeId
    hops[(s.hash s.hashSeed dstNode corrId).toNat % hops.length]?

/-- A set of one hop leaves no choice. -/
theorem selectHop_single (s : EcmpSelector) (hop : NextHop) (dstNode corrId : UInt64) :
    s.selectHop (HopSet.single hop) dstNode corrId = some hop := by
  unfold EcmpSelector.selectHop HopSet.single
  simp [Nat.mod_one]

/-- A hop set with a hop always gives one. -/
theorem selectHop_eq_none_iff {s : EcmpSelector} {hopSet : HopSet} {dstNode corrId : UInt64} :
    s.selectHop hopSet dstNode corrId = none ↔ hopSet.hops = [] := by
  unfold EcmpSelector.selectHop
  by_cases h : hopSet.hops = []
  · simp [h]
  · have hlength : 0 < (hopSet.hops.mergeSort fun a b => a.nodeId ≤ b.nodeId).length := by
      rw [List.length_mergeSort]
      exact List.length_pos_iff.mpr h
    rw [if_neg (by simpa using h)]
    refine iff_of_false ?_ h
    rw [List.getElem?_eq_none_iff, Nat.not_le]
    exact Nat.mod_lt _ hlength

/-- `EcmpDecision`. -/
structure EcmpDecision where
  nextHop : NextHop
  totalHops : Nat
  cost : UInt32
  deriving Repr, DecidableEq

/-! ## Decisions (`router.rs`) -/

/-- `DropReason`. -/
inductive DropReason where
  | noRoute
  | ttlExpired
  | invalidDestination
  | routingLoop
  | adminProhibited
  deriving Repr, DecidableEq

/-- `fmt::Display for DropReason`. -/
def DropReason.text : DropReason → String
  | .noRoute => "no route to destination"
  | .ttlExpired => "TTL expired"
  | .invalidDestination => "invalid destination"
  | .routingLoop => "routing loop detected"
  | .adminProhibited => "administratively prohibited"

/-- `RoutingDecision`. -/
inductive RoutingDecision where
  | forward (decision : EcmpDecision)
  | local
  | drop (reason : DropReason)
  deriving Repr, DecidableEq

/-- `RoutingContext`, with the fields a decision reads. -/
structure RoutingContext where
  srcNode : NodeId
  dstNode : NodeId
  ttl : UInt8
  corrId : UInt64
  deriving Repr, DecidableEq

/-! ## The table (`table.rs`) -/

/-- `RoutingTable`. -/
structure RoutingTable where
  localNodeId : NodeId
  routes : HashMap NodeId HopSet
  ecmpSelector : EcmpSelector
  currentEpoch : UInt32

namespace RoutingTable

/-- `RoutingTable::new`, for a given hash. -/
def new (localNodeId : NodeId) (hash : UInt64 → UInt64 → UInt64 → UInt64) : RoutingTable :=
  { localNodeId, routes := ∅, ecmpSelector := { hashSeed := 0x517cc1b727220a95, hash },
    currentEpoch := 0 }

/-- `decide`. -/
def decide (t : RoutingTable) (ctx : RoutingContext) : RoutingDecision :=
  if ctx.dstNode = t.localNodeId then .local
  else if ctx.ttl = 0 then .drop .ttlExpired
  else
    match t.routes.lookup ctx.dstNode with
    | some hopSet =>
      match t.ecmpSelector.selectHop hopSet ctx.dstNode ctx.corrId with
      | some nextHop =>
        .forward { nextHop, totalHops := hopSet.hops.length, cost := hopSet.cost }
      | none => .drop .noRoute
    | none => .drop .noRoute

/-- A route of one hop is taken. -/
theorem decide_single {t : RoutingTable} {ctx : RoutingContext} {hop : NextHop}
    (hlocal : ctx.dstNode ≠ t.localNodeId) (httl : ctx.ttl ≠ 0)
    (hroute : t.routes.lookup ctx.dstNode = some (HopSet.single hop)) :
    t.decide ctx = .forward { nextHop := hop, totalHops := 1, cost := hop.cost } := by
  unfold RoutingTable.decide
  rw [if_neg hlocal, if_neg httl, hroute]
  dsimp only
  rw [selectHop_single]
  rfl

/-- When a message for another node, with TTL left, has no route. -/
theorem decide_noRoute_iff {t : RoutingTable} {ctx : RoutingContext}
    (hlocal : ctx.dstNode ≠ t.localNodeId) (httl : ctx.ttl ≠ 0) :
    t.decide ctx = .drop .noRoute ↔
      ∀ hopSet, t.routes.lookup ctx.dstNode = some hopSet → hopSet.hops = [] := by
  unfold RoutingTable.decide
  rw [if_neg hlocal, if_neg httl]
  cases hroute : t.routes.lookup ctx.dstNode with
  | none => simp
  | some hopSet =>
    dsimp only
    cases hhop : t.ecmpSelector.selectHop hopSet ctx.dstNode ctx.corrId with
    | none => simp [selectHop_eq_none_iff.mp hhop]
    | some nextHop =>
      have hne : hopSet.hops ≠ [] := by
        intro hnil
        rw [selectHop_eq_none_iff.mpr hnil] at hhop
        exact absurd hhop (by simp)
      simp [hne]

/-- When a message is forwarded: it has a route, and the selector's hop of it is taken. -/
theorem decide_forward_iff {t : RoutingTable} {ctx : RoutingContext} {ecmp : EcmpDecision} :
    t.decide ctx = .forward ecmp ↔
      ctx.dstNode ≠ t.localNodeId ∧ ctx.ttl ≠ 0 ∧ ∃ hopSet nextHop,
        t.routes.lookup ctx.dstNode = some hopSet ∧
        t.ecmpSelector.selectHop hopSet ctx.dstNode ctx.corrId = some nextHop ∧
        ecmp = { nextHop, totalHops := hopSet.hops.length, cost := hopSet.cost } := by
  unfold RoutingTable.decide
  split
  next hlocal => simp [hlocal]
  next hlocal =>
    split
    next httl => simp [httl]
    next httl =>
      cases hroute : t.routes.lookup ctx.dstNode with
      | none => simp
      | some hopSet =>
        cases hhop : t.ecmpSelector.selectHop hopSet ctx.dstNode ctx.corrId with
        | none => simp [hhop]
        | some nextHop => simp [hhop, hlocal, httl, eq_comm]

/-- The first step of `update_routes_from_topology`: clear all routes except to
the local node. -/
def retainLocal (t : RoutingTable) : RoutingTable :=
  { t with routes := t.routes.retain fun dst => dst == t.localNodeId }

/-- The body of its loop: the route to one destination. -/
def insertRoute (t : RoutingTable) (dstNode : NodeId) (r : ComputedRoute) : RoutingTable :=
  { t with routes := t.routes.insert dstNode (HopSet.single (NextHop.new r.nextHop r.totalCost)) }

/-- Its last step: the epoch, which wraps. -/
def bumpEpoch (t : RoutingTable) : RoutingTable :=
  { t with currentEpoch := t.currentEpoch + 1 }

/-- `update_routes_from_topology`, run without interruption. -/
def updateRoutesFromTopology (t : RoutingTable) (computed : HashMap NodeId ComputedRoute) :
    RoutingTable :=
  (computed.entries.foldl (fun t e => t.insertRoute e.1 e.2) t.retainLocal).bumpEpoch

end RoutingTable

end MeshCore.Routing
