import MeshCore.Lib.Collections
import Mathlib.Algebra.BigOperators.Group.List.Basic
import Mathlib.Algebra.Ring.Nat

/-!
# The link-state database (`mesh-topology/src/link_state`)

`TopologyDatabase` holds, per node, the links that node last advertised, and the
routes computed from them. This file is the model: the data, `compute_routes`
with its lazily deleted heap and its walk back over `previous`, and the
operations that change the database. The proofs about it live in
`Topology/Search.lean` (the search refines the label search of the library),
`Topology/Routes.lean` (what the routes are) and `Topology/Sync.lean` (what
updates do).

Mirroring notes:
- `HashMap`s are association lists whose entry order is the iteration order, so
  every theorem about a database holds for every order the hash maps may have.
- `BinaryHeap<Reverse<(u32, u64)>>` gives its least pair first; `unvisited` is
  the heap's content and `popMin` the pop.
- The two loops carry fuel. `searchFuel` and the number of entries of
  `previous` are enough for every input, which `Topology/Search.lean` and
  `Topology/Routes.lean` prove.
- `hop_count` is a `u8` and wraps as in a release build.
- The clock is an argument: `now` is what `SystemTime::now()` gave, in seconds.
  `Nat` subtraction is the `saturating_sub` of the age tests.
-/

namespace MeshCore.Topology

open MeshCore.Lib

/-- A node ID (`u64`). -/
abbrev NodeId := UInt64

/-- `MAX_TOPOLOGY_AGE_SECS`: five minutes. -/
def maxTopologyAgeSecs : Nat := 300

/-- `DEFAULT_TOPOLOGY_TTL`. -/
def defaultTopologyTtl : UInt8 := 8

/-! ## Messages (`mesh-wire/src/topology.rs`) -/

/-- `NeighborInfo`. -/
structure NeighborInfo where
  nodeId : NodeId
  cost : UInt32
  addr : Option String
  deriving Repr, DecidableEq

/-- `TopologyUpdate`. -/
structure TopologyUpdate where
  originatorNode : NodeId
  sequenceNumber : UInt64
  neighbors : List NeighborInfo
  ttl : UInt8
  timestamp : Nat
  deriving Repr, DecidableEq

/-- `TopologyUpdate::is_newer_than`: the wrapping difference, read as signed. -/
def TopologyUpdate.isNewerThan (u : TopologyUpdate) (otherSeq : UInt64) : Bool :=
  0 < (u.sequenceNumber - otherSeq).toInt64

/-! ## The database -/

/-- `LinkInfo`. -/
structure LinkInfo where
  cost : UInt32
  addr : Option String
  lastSeen : Nat
  deriving Repr, DecidableEq

/-- `NodeInfo`. -/
structure NodeInfo where
  nodeId : NodeId
  sequenceNumber : UInt64
  lastUpdated : Nat
  neighbors : HashMap NodeId LinkInfo
  deriving DecidableEq

/-- `ComputedRoute`. -/
structure ComputedRoute where
  dstNode : NodeId
  nextHop : NodeId
  totalCost : UInt32
  hopCount : UInt8
  deriving Repr, DecidableEq

/-- The `nodes` map of a database. -/
abbrev NodeMap := HashMap NodeId NodeInfo

/-- `TopologyDatabase`. -/
structure TopologyDatabase where
  localNodeId : NodeId
  nodes : NodeMap
  routes : HashMap NodeId ComputedRoute
  localSequence : UInt64
  deriving DecidableEq

/-! ## `compute_routes` -/

/-- `u32::MAX`: no path, and the value at which costs saturate. -/
def u32Max : UInt32 := 0xFFFFFFFF

/-- `u32::saturating_add`. -/
def saturatingAdd (a b : UInt32) : UInt32 :=
  if a.toNat + b.toNat < 2 ^ 32 then a + b else u32Max

/-- The order of `(u32, u64)` pairs: the distance first, then the node. -/
def entryLe (a b : UInt32 × NodeId) : Bool :=
  a.1 < b.1 || (a.1 == b.1 && a.2 ≤ b.2)

/-- The local variables of the search. -/
structure Search where
  distances : HashMap NodeId UInt32
  previous : HashMap NodeId NodeId
  unvisited : List (UInt32 × NodeId)

/-- `distances.get(&v).copied().unwrap_or(u32::MAX)`. -/
def Search.dist (s : Search) (v : NodeId) : UInt32 := (s.distances.lookup v).getD u32Max

/-- Before the loop: the local node at distance zero, every other known node at
`u32::MAX`, all in the heap. -/
def initSearch (localId : NodeId) (nodes : NodeMap) : Search :=
  nodes.keys.foldl
    (fun s nodeId =>
      if nodeId ≠ localId then
        { s with distances := s.distances.insert nodeId u32Max
                 unvisited := (u32Max, nodeId) :: s.unvisited }
      else s)
    { distances := AList.insert localId 0 ∅, previous := ∅, unvisited := [(0, localId)] }

/-- The body of the inner `for`: relax one link of the current node. -/
def relaxLink (currentDist : UInt32) (currentNode : NodeId) (s : Search)
    (neighborId : NodeId) (link : LinkInfo) : Search :=
  let newDist := saturatingAdd currentDist link.cost
  if newDist < s.dist neighborId then
    { distances := s.distances.insert neighborId newDist
      previous := s.previous.insert neighborId currentNode
      unvisited := (newDist, neighborId) :: s.unvisited }
  else s

/-- The body of the `while let`: skip a stale entry, otherwise relax every link
of the current node. -/
def visit (nodes : NodeMap) (s : Search) (currentDist : UInt32) (currentNode : NodeId) : Search :=
  -- stale: the node has been queued again at a lower distance since
  if currentDist > s.dist currentNode then s
  else
    match nodes.lookup currentNode with
    | some nodeInfo =>
      nodeInfo.neighbors.entries.foldl
        (fun s link => relaxLink currentDist currentNode s link.1 link.2) s
    | none => s

/-- The `while let Some(..) = unvisited.pop()` loop. -/
def searchLoop (nodes : NodeMap) : Nat → Search → Search
  | 0, s => s
  | fuel + 1, s =>
    match popMin entryLe s.unvisited with
    | none => s
    | some (entry, rest) =>
      searchLoop nodes fuel (visit nodes { s with unvisited := rest } entry.1 entry.2)

/-- The number of links in the database. -/
def linkCount (nodes : NodeMap) : Nat :=
  (nodes.entries.map fun e => e.2.neighbors.entries.length).sum

/-- Enough iterations for the search: one per initial entry, and one per
lowering of a distance of some link's target. -/
def searchFuel (nodes : NodeMap) : Nat :=
  nodes.entries.length + 1 + u32Max.toNat * linkCount nodes

/-- The state after the loop. -/
def search (localId : NodeId) (nodes : NodeMap) : Search :=
  searchLoop nodes (searchFuel nodes) (initSearch localId nodes)

/-- The walk back from a destination: the last node before the local one, and
the number of links. -/
def walkBack (previous : HashMap NodeId NodeId) (localId : NodeId) :
    Nat → NodeId → UInt8 → NodeId × UInt8
  | 0, nextHop, hopCount => (nextHop, hopCount)
  | fuel + 1, nextHop, hopCount =>
    match previous.lookup nextHop with
    | none => (nextHop, hopCount)
    | some prevNode =>
      -- the hop count is a `u8`, and wraps on paths of 256 links
      if prevNode = localId then (nextHop, hopCount + 1)
      else walkBack previous localId fuel prevNode (hopCount + 1)

/-- The route to one destination. -/
def buildRoute (s : Search) (localId dstNode : NodeId) (totalCost : UInt32) : ComputedRoute :=
  let (nextHop, hopCount) := walkBack s.previous localId s.previous.entries.length dstNode 0
  { dstNode, nextHop, totalCost, hopCount }

/-- The final `for` over `distances`. -/
def buildRoutes (localId : NodeId) (s : Search) : HashMap NodeId ComputedRoute :=
  s.distances.entries.foldl
    (fun routes e =>
      if e.1 ≠ localId ∧ e.2 ≠ u32Max then routes.insert e.1 (buildRoute s localId e.1 e.2)
      else routes)
    ∅

namespace TopologyDatabase

/-- `compute_routes`. -/
def computeRoutes (db : TopologyDatabase) : TopologyDatabase :=
  { db with routes := buildRoutes db.localNodeId (search db.localNodeId db.nodes) }

/-! ## The operations -/

/-- `TopologyDatabase::new`. -/
def new (localNodeId : NodeId) : TopologyDatabase :=
  { localNodeId, nodes := ∅, routes := ∅, localSequence := 1 }

/-- `next_sequence_number`. -/
def nextSequenceNumber (db : TopologyDatabase) : UInt64 × TopologyDatabase :=
  (db.localSequence, { db with localSequence := db.localSequence + 1 })

/-- The map of links an advertisement describes; a repeated node ID keeps its
last occurrence. -/
def neighborMap (now : Nat) (neighbors : List NeighborInfo) : HashMap NodeId LinkInfo :=
  HashMap.insertAll NeighborInfo.nodeId
    (fun n => { cost := n.cost, addr := n.addr, lastSeen := now }) neighbors ∅

/-- `update_local_neighbors`. -/
def updateLocalNeighbors (db : TopologyDatabase) (now : Nat) (neighbors : List NeighborInfo) :
    TopologyUpdate × TopologyDatabase :=
  let (sequence, db) := db.nextSequenceNumber
  let nodeInfo : NodeInfo :=
    { nodeId := db.localNodeId, sequenceNumber := sequence, lastUpdated := now,
      neighbors := neighborMap now neighbors }
  let db := { db with nodes := db.nodes.insert db.localNodeId nodeInfo }
  ({ originatorNode := db.localNodeId, sequenceNumber := sequence, neighbors,
     ttl := defaultTopologyTtl, timestamp := now }, db.computeRoutes)

/-- `process_topology_update`: whether the update was accepted, and the database
after it. -/
def processTopologyUpdate (db : TopologyDatabase) (now : Nat) (update : TopologyUpdate) :
    Bool × TopologyDatabase :=
  if now - update.timestamp > maxTopologyAgeSecs then (false, db)
  else if (db.nodes.lookup update.originatorNode).any
      (fun existing => !update.isNewerThan existing.sequenceNumber) then (false, db)
  else
    let nodeInfo : NodeInfo :=
      { nodeId := update.originatorNode, sequenceNumber := update.sequenceNumber,
        lastUpdated := now, neighbors := neighborMap now update.neighbors }
    (true, computeRoutes { db with nodes := db.nodes.insert update.originatorNode nodeInfo })

/-- `cleanup_old_entries`. -/
def cleanupOldEntries (db : TopologyDatabase) (now : Nat) : TopologyDatabase :=
  let toRemove := (db.nodes.entries.filter fun e =>
    e.1 ≠ db.localNodeId ∧ now - e.2.lastUpdated > maxTopologyAgeSecs).map Sigma.fst
  if toRemove.isEmpty then db
  else computeRoutes { db with nodes := toRemove.foldl (fun nodes id => nodes.erase id) db.nodes }

end TopologyDatabase

end MeshCore.Topology
