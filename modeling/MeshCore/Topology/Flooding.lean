import MeshCore.Topology.LocalEntry
import MeshCore.Lib.Spread
import Mathlib.Data.FinEnum

/-!
# Flooding an advertisement

`update_local_neighbors` issues an advertisement with a TTL of
`DEFAULT_TOPOLOGY_TTL`, and the node broadcasts it over all its sessions. Every
node that receives a copy runs the handler of `mesh-bin/src/main.rs`:
`process_topology_update`, and when that accepts, a broadcast of the update with
one less TTL, unless the TTL is used up.

`Network` is the state of all nodes with the copies in flight, a queue for each
direction of each link. A copy is accepted where it arrives first, whatever TTL
it has left, and later copies of it are duplicates. So the hop counts of the
accepted copies form a spread over the session graph (`Flood`), any spread can
come about (`exists_run_of_spread`), and nothing is in flight any more only when
the spread is complete. A flood reaches every node in every order of delivery
exactly when the network has no complete spread that leaves one out
(`flood_reaches_iff`); that every node is within `DEFAULT_TOPOLOGY_TTL` hops is
not enough (`flood_stalls`).

Mirroring notes:
- The task a received update starts is one step here: the delay before its
  broadcast is part of the delay of the copies it sends.
- `sessions` is fixed: the sessions stay up while the update spreads, and lose
  nothing.
-/

namespace MeshCore.Topology

open MeshCore.Lib

/-- All nodes of a network. -/
structure Network where
  /-- The keys of each node's `SessionManager::sessions`. -/
  sessions : NodeId → Finset NodeId
  /-- The `topology_db` of each node. -/
  dbs : NodeId → TopologyDatabase
  /-- The copies in flight from one node to another, oldest first. -/
  links : NodeId → NodeId → List TopologyUpdate

namespace Network

/-- `SessionManager::broadcast_topology_update` at a node: a copy to every
session. -/
def broadcastTopologyUpdate (net : Network) (node : NodeId) (update : TopologyUpdate) : Network :=
  { net with links := fun a b =>
      if a = node ∧ b ∈ net.sessions node then net.links a b ++ [update] else net.links a b }

/-- A node issues an advertisement: `update_local_neighbors`, and the broadcast
of what it returns. -/
def issue (net : Network) (node : NodeId) (now : Nat) (neighbors : List NeighborInfo) : Network :=
  let (update, db) := (net.dbs node).updateLocalNeighbors now neighbors
  broadcastTopologyUpdate { net with dbs := Function.update net.dbs node db } node update

/-- The handler of a received update. -/
def handleReceived (net : Network) (node : NodeId) (now : Nat) (update : TopologyUpdate) :
    Network :=
  let (accepted, db) := (net.dbs node).processTopologyUpdate now update
  let net := { net with dbs := Function.update net.dbs node db }
  if accepted then
    -- decrement TTL before forwarding
    if update.ttl > 1 then
      net.broadcastTopologyUpdate node { update with ttl := update.ttl - 1 }
    else net
  else net

end Network

/-- A delivery: over which link, and what the receiver's clock shows. -/
structure Hop where
  src : NodeId
  dst : NodeId
  now : Nat

/-- The link of a delivery, with only `rest` left on it. -/
def Network.take (net : Network) (hop : Hop) (rest : List TopologyUpdate) : Network :=
  { net with links := fun a b => if a = hop.src ∧ b = hop.dst then rest else net.links a b }

/-- The oldest copy on a link arrives. -/
def Network.deliver (net : Network) (hop : Hop) : Network :=
  match net.links hop.src hop.dst with
  | [] => net
  | update :: rest => (net.take hop rest).handleReceived hop.dst hop.now update

/-- A run of deliveries. -/
def Network.run (net : Network) (hops : List Hop) : Network := hops.foldl Network.deliver net

/-- No copy is in flight. -/
def Network.Quiet (net : Network) : Prop := ∀ a b, net.links a b = []

/-- The database has the originator's entry with this sequence number. -/
def TopologyDatabase.Holds (db : TopologyDatabase) (originator : NodeId) (seq : UInt64) : Prop :=
  ∃ entry, db.nodes.lookup originator = some entry ∧ entry.sequenceNumber = seq

/-- Nothing is in flight, and the advertisement the node will issue next is news
to every other node. -/
structure Network.Ready (net : Network) (originator : NodeId) : Prop where
  quiet : net.Quiet
  localNodeId : (net.dbs originator).localNodeId = originator
  news : ∀ v, v ≠ originator → ∀ entry, (net.dbs v).nodes.lookup originator = some entry →
    0 < ((net.dbs originator).localSequence - entry.sequenceNumber).toInt64

/-- A session leads from the one node to the other. -/
def Network.Linked (net : Network) (a b : NodeId) : Prop := b ∈ net.sessions a

instance (net : Network) (a b : NodeId) : Decidable (net.Linked a b) :=
  inferInstanceAs (Decidable (b ∈ net.sessions a))

/-- The hops an advertisement may make. -/
def maxHops : Nat := defaultTopologyTtl.toNat

/-! ## The copies -/

/-- The copy a node that got the update after `k` hops sends on. -/
def copyAfter (update : TopologyUpdate) (k : Nat) : TopologyUpdate :=
  { update with ttl := defaultTopologyTtl - UInt8.ofNat k }

theorem copyAfter_ttl_gt_one (update : TopologyUpdate) {k : Nat} (hk : k < maxHops) :
    (copyAfter update k).ttl > 1 ↔ k + 1 < maxHops := by
  have hall : ∀ k < maxHops, defaultTopologyTtl - UInt8.ofNat k > 1 ↔ k + 1 < maxHops := by decide
  exact hall k hk

theorem copyAfter_decrement (update : TopologyUpdate) {k : Nat} (hk : k < maxHops) :
    ({ copyAfter update k with ttl := (copyAfter update k).ttl - 1 } : TopologyUpdate)
      = copyAfter update (k + 1) := by
  have hall : ∀ k < maxHops,
      defaultTopologyTtl - UInt8.ofNat k - 1 = defaultTopologyTtl - UInt8.ofNat (k + 1) := by decide
  unfold copyAfter
  rw [← hall k hk]

/-! ## The invariant -/

/-- The state of a flood of `update`, whose accepted copies have made the hops
`depth`. -/
structure Flood (update : TopologyUpdate) (depth : NodeId → Option Nat) (net : Network) :
    Prop where
  spread : Spread net.Linked update.originatorNode maxHops depth
  holds : ∀ v k, depth v = some k →
    (net.dbs v).Holds update.originatorNode update.sequenceNumber
  unheard : ∀ v, depth v = none → ∀ entry,
    (net.dbs v).nodes.lookup update.originatorNode = some entry →
      update.isNewerThan entry.sequenceNumber = true
  copies : ∀ a b, ∀ copy ∈ net.links a b, ∃ k, depth a = some k ∧ k < maxHops ∧
    net.Linked a b ∧ copy = copyAfter update k
  pending : ∀ a b k, depth a = some k → k < maxHops → net.Linked a b → depth b = none →
    net.links a b ≠ []

/-! ## One delivery -/

/-- A copy of what a node holds already is a duplicate. -/
theorem process_duplicate {db : TopologyDatabase} {now : Nat} {u : TopologyUpdate}
    (hfresh : now - u.timestamp ≤ maxTopologyAgeSecs)
    (hholds : db.Holds u.originatorNode u.sequenceNumber) :
    db.processTopologyUpdate now u = (false, db) := by
  obtain ⟨entry, hl, hseq⟩ := hholds
  rcases process_fresh db hfresh with ⟨_, _, _, heq⟩ | ⟨hnewer, _⟩
  · exact heq
  · have hself := hnewer entry hl
    rw [hseq, not_isNewerThan_self] at hself
    exact absurd hself (by simp)

/-- A copy of news is accepted, and held from then on. -/
theorem process_news {db : TopologyDatabase} {now : Nat} {u : TopologyUpdate}
    (hfresh : now - u.timestamp ≤ maxTopologyAgeSecs)
    (hnews : ∀ entry, db.nodes.lookup u.originatorNode = some entry →
      u.isNewerThan entry.sequenceNumber = true) :
    ∃ db', db.processTopologyUpdate now u = (true, db') ∧
      db'.Holds u.originatorNode u.sequenceNumber := by
  rcases process_fresh db hfresh with ⟨entry, hl, hn, _⟩ | ⟨_, heq⟩
  · rw [hnews entry hl] at hn
    exact absurd hn (by simp)
  · exact ⟨_, heq, entryOf now u, AList.lookup_insert _, rfl⟩

theorem handleReceived_rejected {n : Network} {node : NodeId} {now : Nat}
    {update : TopologyUpdate}
    (hp : (n.dbs node).processTopologyUpdate now update = (false, n.dbs node)) :
    n.handleReceived node now update = n := by
  unfold Network.handleReceived
  rw [hp]
  simp

theorem handleReceived_accepted {n : Network} {node : NodeId} {now : Nat}
    {update : TopologyUpdate} {db : TopologyDatabase}
    (hp : (n.dbs node).processTopologyUpdate now update = (true, db)) :
    n.handleReceived node now update =
      if update.ttl > 1 then
        Network.broadcastTopologyUpdate { n with dbs := Function.update n.dbs node db } node
          { update with ttl := update.ttl - 1 }
      else { n with dbs := Function.update n.dbs node db } := by
  unfold Network.handleReceived
  rw [hp]
  rfl

/-- A copy is accepted at `hop.dst` after `k` hops and one more. -/
def Network.accept (net : Network) (hop : Hop) (rest : List TopologyUpdate)
    (db : TopologyDatabase) (update : TopologyUpdate) (k : Nat) : Network :=
  let net := { net.take hop rest with dbs := Function.update net.dbs hop.dst db }
  if k + 1 < maxHops then net.broadcastTopologyUpdate hop.dst (copyAfter update (k + 1)) else net

/-- What a delivery can do in a flood: nothing, drop a duplicate, or reach one
more node. -/
theorem Flood.deliver_cases {update : TopologyUpdate} {depth : NodeId → Option Nat} {net : Network}
    (h : Flood update depth net) {hop : Hop}
    (hfresh : hop.now - update.timestamp ≤ maxTopologyAgeSecs) :
    (net.links hop.src hop.dst = [] ∧ net.deliver hop = net) ∨
    (∃ copy rest, net.links hop.src hop.dst = copy :: rest ∧ depth hop.dst ≠ none ∧
      net.deliver hop = net.take hop rest) ∨
    (∃ k rest db, net.links hop.src hop.dst = copyAfter update k :: rest ∧
      depth hop.src = some k ∧ k < maxHops ∧ net.Linked hop.src hop.dst ∧ depth hop.dst = none ∧
      db.Holds update.originatorNode update.sequenceNumber ∧
      net.deliver hop = net.accept hop rest db update k) := by
  unfold Network.deliver
  cases hq : net.links hop.src hop.dst with
  | nil => exact Or.inl ⟨rfl, rfl⟩
  | cons copy rest =>
    obtain ⟨k, hsrc, hk, hlinked, rfl⟩ :=
      h.copies hop.src hop.dst copy (by rw [hq]; exact List.mem_cons_self ..)
    cases hdst : depth hop.dst with
    | some j =>
      refine Or.inr (Or.inl ⟨copyAfter update k, rest, rfl, by simp, ?_⟩)
      exact handleReceived_rejected (n := net.take hop rest)
        (process_duplicate hfresh (h.holds hop.dst j hdst))
    | none =>
      obtain ⟨db, hacc, hholds⟩ := process_news (u := copyAfter update k) hfresh
        (h.unheard hop.dst hdst)
      refine Or.inr (Or.inr ⟨k, rest, db, rfl, hsrc, hk, hlinked, rfl, hholds, ?_⟩)
      refine (handleReceived_accepted (n := net.take hop rest) hacc).trans ?_
      rw [copyAfter_decrement update hk]
      simp only [copyAfter_ttl_gt_one update hk]
      rfl

section

variable {update : TopologyUpdate} {depth : NodeId → Option Nat} {net : Network} {hop : Hop}

theorem mem_take_links {copy c : TopologyUpdate} {rest : List TopologyUpdate}
    (hq : net.links hop.src hop.dst = copy :: rest) {a b : NodeId}
    (hc : c ∈ (net.take hop rest).links a b) : c ∈ net.links a b := by
  unfold Network.take at hc
  dsimp only at hc
  split at hc
  next hab =>
    rw [hab.1, hab.2, hq]
    exact List.mem_cons_of_mem copy hc
  next => exact hc

theorem take_links_of_ne {rest : List TopologyUpdate} {a b : NodeId} (hb : b ≠ hop.dst) :
    (net.take hop rest).links a b = net.links a b :=
  if_neg (fun hab => hb hab.2)

/-- A duplicate leaves the flood as it is. -/
theorem Flood.take (h : Flood update depth net) {copy : TopologyUpdate}
    {rest : List TopologyUpdate} (hq : net.links hop.src hop.dst = copy :: rest)
    (hdst : depth hop.dst ≠ none) : Flood update depth (net.take hop rest) where
  spread := h.spread
  holds := h.holds
  unheard := h.unheard
  copies := fun a b c hc => h.copies a b c (mem_take_links hq hc)
  pending := by
    intro a b k ha hk hab hb
    have hne : b ≠ hop.dst := by
      intro heq
      rw [heq] at hb
      exact hdst hb
    rw [take_links_of_ne hne]
    exact h.pending a b k ha hk hab hb

theorem accept_dbs (rest : List TopologyUpdate) (db : TopologyDatabase) (k : Nat) :
    (net.accept hop rest db update k).dbs = Function.update net.dbs hop.dst db := by
  unfold Network.accept
  dsimp only
  split
  · rfl
  · rfl

theorem accept_sessions (rest : List TopologyUpdate) (db : TopologyDatabase) (k : Nat) :
    (net.accept hop rest db update k).sessions = net.sessions := by
  unfold Network.accept
  dsimp only
  split
  · rfl
  · rfl

theorem accept_links_of_ne (rest : List TopologyUpdate) (db : TopologyDatabase) (k : Nat)
    {a b : NodeId} (ha : a ≠ hop.dst) :
    (net.accept hop rest db update k).links a b = (net.take hop rest).links a b := by
  unfold Network.accept
  dsimp only
  split
  · exact if_neg (fun hab => ha hab.1)
  · rfl

/-- The node that accepts sends one copy over each session, if there are hops
left. -/
theorem accept_links_dst (rest : List TopologyUpdate) (db : TopologyDatabase) (k : Nat) (b : NodeId)
    (hempty : (net.take hop rest).links hop.dst b = []) :
    (net.accept hop rest db update k).links hop.dst b =
      if k + 1 < maxHops ∧ net.Linked hop.dst b then [copyAfter update (k + 1)] else [] := by
  unfold Network.accept
  dsimp only
  split
  next hk =>
    show (if hop.dst = hop.dst ∧ b ∈ net.sessions hop.dst then
      (net.take hop rest).links hop.dst b ++ [copyAfter update (k + 1)]
      else (net.take hop rest).links hop.dst b) = _
    rw [hempty]
    simp [hk, Network.Linked]
  next hk =>
    rw [if_neg (fun h => hk h.1)]
    exact hempty

/-- An accepted copy reaches one more node. -/
theorem Flood.accept (h : Flood update depth net) {k : Nat} {rest : List TopologyUpdate}
    {db : TopologyDatabase} (hq : net.links hop.src hop.dst = copyAfter update k :: rest)
    (hsrc : depth hop.src = some k) (hk : k < maxHops) (hlinked : net.Linked hop.src hop.dst)
    (hdst : depth hop.dst = none)
    (hholds : db.Holds update.originatorNode update.sequenceNumber) :
    Flood update (Function.update depth hop.dst (some (k + 1)))
      (net.accept hop rest db update k) := by
  have hlinks : ∀ b, (net.accept hop rest db update k).links hop.dst b =
      if k + 1 < maxHops ∧ net.Linked hop.dst b then [copyAfter update (k + 1)] else [] := by
    -- the node had not been reached, so it has sent nothing so far
    intro b
    refine accept_links_dst rest db k b (List.eq_nil_iff_forall_not_mem.mpr ?_)
    intro c hc
    obtain ⟨j, hj, _⟩ := h.copies hop.dst b c (mem_take_links hq hc)
    rw [hdst] at hj
    exact absurd hj (by simp)
  refine ⟨?_, ?_, ?_, ?_, ?_⟩
  · unfold Network.Linked
    rw [accept_sessions]
    exact h.spread.extend hsrc hk hlinked hdst
  · intro v j hv
    rw [accept_dbs]
    by_cases hvd : v = hop.dst
    · rw [hvd, Function.update_self]
      exact hholds
    · rw [Function.update_of_ne hvd] at hv ⊢
      exact h.holds v j hv
  · intro v hv entry hentry
    have hvd : v ≠ hop.dst := by
      intro heq
      rw [heq, Function.update_self] at hv
      exact absurd hv (by simp)
    rw [Function.update_of_ne hvd] at hv
    rw [accept_dbs, Function.update_of_ne hvd] at hentry
    exact h.unheard v hv entry hentry
  · intro a b c hc
    unfold Network.Linked
    rw [accept_sessions]
    by_cases had : a = hop.dst
    · subst had
      rw [hlinks b] at hc
      split at hc
      next hkb =>
        exact ⟨k + 1, Function.update_self .., hkb.1, hkb.2, List.mem_singleton.mp hc⟩
      next => exact absurd hc (List.not_mem_nil)
    · rw [accept_links_of_ne rest db k had] at hc
      rw [Function.update_of_ne had]
      exact h.copies a b c (mem_take_links hq hc)
  · intro a b j ha hj hab hb
    unfold Network.Linked at hab
    rw [accept_sessions] at hab
    by_cases had : a = hop.dst
    · subst had
      rw [Function.update_self] at ha
      rw [hlinks b, if_pos ⟨Option.some.inj ha ▸ hj, hab⟩]
      simp
    · have hbd : b ≠ hop.dst := by
        intro heq
        rw [heq, Function.update_self] at hb
        exact absurd hb (by simp)
      rw [Function.update_of_ne had] at ha
      rw [Function.update_of_ne hbd] at hb
      rw [accept_links_of_ne rest db k had, take_links_of_ne hbd]
      exact h.pending a b j ha hj hab hb

/-- One delivery keeps the flood a flood. -/
theorem Flood.deliver (h : Flood update depth net)
    (hfresh : hop.now - update.timestamp ≤ maxTopologyAgeSecs) :
    ∃ depth', Flood update depth' (net.deliver hop) := by
  rcases h.deliver_cases hfresh with ⟨_, heq⟩ | ⟨copy, rest, hq, hdst, heq⟩ |
    ⟨k, rest, db, hq, hsrc, hk, hlinked, hdst, hholds, heq⟩
  · rw [heq]
    exact ⟨depth, h⟩
  · rw [heq]
    exact ⟨depth, h.take hq hdst⟩
  · rw [heq]
    exact ⟨_, h.accept hq hsrc hk hlinked hdst hholds⟩

end

/-! ## Runs -/

/-- The copies arrive while they are young enough to be accepted. -/
def Timely (update : TopologyUpdate) (hops : List Hop) : Prop :=
  ∀ hop ∈ hops, hop.now - update.timestamp ≤ maxTopologyAgeSecs

theorem Flood.run {update : TopologyUpdate} {depth : NodeId → Option Nat} {net : Network}
    (h : Flood update depth net) {hops : List Hop} (htimely : Timely update hops) :
    ∃ depth', Flood update depth' (net.run hops) := by
  induction hops generalizing net depth with
  | nil => exact ⟨depth, h⟩
  | cons hop hops ih =>
    obtain ⟨depth', h'⟩ := h.deliver (htimely hop (List.mem_cons_self ..))
    exact ih h' (fun x hx => htimely x (List.mem_cons_of_mem hop hx))

/-- When nothing is in flight, nothing is left to hand on. -/
theorem Flood.complete {update : TopologyUpdate} {depth : NodeId → Option Nat} {net : Network}
    (h : Flood update depth net) (hquiet : net.Quiet) : Complete net.Linked maxHops depth := by
  intro a b k ha hk hab
  cases hb : depth b with
  | some j => rfl
  | none => exact absurd (hquiet a b) (h.pending a b k ha hk hab hb)

theorem deliver_sessions (net : Network) (hop : Hop) :
    (net.deliver hop).sessions = net.sessions := by
  unfold Network.deliver
  split
  · rfl
  · unfold Network.handleReceived
    dsimp only
    split
    · split
      · rfl
      · rfl
    · rfl

theorem run_sessions (net : Network) (hops : List Hop) :
    (net.run hops).sessions = net.sessions := by
  induction hops generalizing net with
  | nil => rfl
  | cons hop hops ih => exact (ih (net.deliver hop)).trans (deliver_sessions net hop)

/-- The advertisement a node issues next. -/
def Network.advertisement (net : Network) (node : NodeId) (now : Nat)
    (neighbors : List NeighborInfo) : TopologyUpdate :=
  ((net.dbs node).updateLocalNeighbors now neighbors).1

/-- Issuing an advertisement starts a flood with only the originator reached. -/
theorem Network.Ready.issue {net : Network} {originator : NodeId} (h : net.Ready originator)
    (now : Nat) (neighbors : List NeighborInfo) :
    Flood (net.advertisement originator now neighbors) (atRoot originator)
      (net.issue originator now neighbors) := by
  have horig : (net.advertisement originator now neighbors).originatorNode = originator :=
    h.localNodeId
  refine ⟨?_, ?_, ?_, ?_, ?_⟩
  · rw [horig]
    exact spread_atRoot _ originator maxHops
  · intro v k hv
    rw [(atRoot_eq_some hv).1, horig]
    show (Function.update net.dbs originator _ originator).Holds _ _
    rw [Function.update_self]
    refine ⟨localEntry (net.dbs originator) now neighbors, ?_, rfl⟩
    exact (congrArg (AList.lookup · _) h.localNodeId.symm).trans (AList.lookup_insert _)
  · intro v hv entry hentry
    have hne : v ≠ originator := by
      intro heq
      rw [heq] at hv
      unfold atRoot at hv
      rw [Function.update_self] at hv
      exact absurd hv (by simp)
    rw [horig] at hentry
    have hentry' : (net.dbs v).nodes.lookup originator = some entry := by
      refine Eq.trans ?_ hentry
      show _ = (Function.update net.dbs originator _ v).nodes.lookup _
      rw [Function.update_of_ne hne]
    exact decide_eq_true (h.news v hne entry hentry')
  · intro a b c hc
    change c ∈ (if a = originator ∧ b ∈ net.sessions originator then
      net.links a b ++ [net.advertisement originator now neighbors] else net.links a b) at hc
    rw [h.quiet a b] at hc
    split at hc
    next hab =>
      refine ⟨0, ?_, by decide, ?_, List.mem_singleton.mp hc⟩
      · rw [hab.1]
        exact Function.update_self ..
      · rw [hab.1]
        exact hab.2
    next => exact absurd hc List.not_mem_nil
  · intro a b k ha _ hab _
    rw [(atRoot_eq_some ha).1] at hab ⊢
    show (if originator = originator ∧ b ∈ net.sessions originator then
      net.links originator b ++ [net.advertisement originator now neighbors]
      else net.links originator b) ≠ []
    rw [if_pos ⟨rfl, hab⟩]
    simp

/-! ## Every spread can come about -/

theorem run_append (net : Network) (hops hops' : List Hop) :
    net.run (hops ++ hops') = (net.run hops).run hops' := List.foldl_append

/-- A delivery at the time of issue, which is never too late. -/
theorem timely_at_timestamp (update : TopologyUpdate) (a b : NodeId) :
    (Hop.mk a b update.timestamp).now - update.timestamp ≤ maxTopologyAgeSecs := by
  rw [Nat.sub_self]
  exact Nat.zero_le _

theorem Timely.append {update : TopologyUpdate} {hops hops' : List Hop}
    (h : Timely update hops) (h' : Timely update hops') : Timely update (hops ++ hops') := by
  intro hop hmem
  rcases List.mem_append.mp hmem with hl | hr
  · exact h hop hl
  · exact h' hop hr

theorem timely_singleton (update : TopologyUpdate) (a b : NodeId) :
    Timely update [⟨a, b, update.timestamp⟩] := by
  intro hop hmem
  rw [List.mem_singleton.mp hmem]
  exact timely_at_timestamp update a b

section

variable {update : TopologyUpdate} {net : Network}

/-- Some order of delivery makes the accepted copies take the hops of any given
spread. -/
theorem exists_run_of_spread (h : Flood update (atRoot update.originatorNode) net)
    {depth : NodeId → Option Nat}
    (hspread : Spread net.Linked update.originatorNode maxHops depth) :
    ∃ hops, Timely update hops ∧ Flood update depth (net.run hops) := by
  refine hspread.grow (P := fun depth => ∃ hops, Timely update hops ∧
    Flood update depth (net.run hops)) ⟨[], fun _ hx => absurd hx List.not_mem_nil, h⟩ ?_
  rintro depth u v k ⟨hops, htimely, hflood⟩ hu hk huv hv
  have huv' : (net.run hops).Linked u v := by
    unfold Network.Linked
    rw [run_sessions]
    exact huv
  -- the copy from `u` to `v` is on its way, and is delivered next
  refine ⟨hops ++ [⟨u, v, update.timestamp⟩], htimely.append (timely_singleton update u v), ?_⟩
  rw [run_append]
  show Flood update _ ((net.run hops).deliver ⟨u, v, update.timestamp⟩)
  rcases hflood.deliver_cases (timely_at_timestamp update u v) with
    ⟨hq, _⟩ | ⟨_, _, _, hdst, _⟩ | ⟨j, rest, db, hq, hsrc, hj, hlinked, hdst, hholds, heq⟩
  · exact absurd hq (hflood.pending u v k hu hk huv' hv)
  · exact absurd hv hdst
  · have hjk : j = k := Option.some.inj (hsrc.symm.trans hu)
    subst hjk
    rw [heq]
    exact hflood.accept hq hsrc hj hlinked hdst hholds

/-- A link of a complete flood can be emptied, without a copy sent anywhere. -/
theorem exists_run_drain_link {depth : NodeId → Option Nat}
    (hcomplete : Complete net.Linked maxHops depth) (a b : NodeId) (h : Flood update depth net) :
    ∃ hops, Timely update hops ∧ Flood update depth (net.run hops) ∧
      (net.run hops).links a b = [] ∧
      ∀ a' b', net.links a' b' = [] → (net.run hops).links a' b' = [] := by
  induction hq : net.links a b generalizing net with
  | nil => exact ⟨[], fun _ hx => absurd hx List.not_mem_nil, h, hq, fun _ _ he => he⟩
  | cons copy rest ih =>
    obtain ⟨k, ha, hk, hab, _⟩ := h.copies a b copy (by rw [hq]; exact List.mem_cons_self ..)
    have hb : depth b ≠ none := by
      intro hnone
      have hsome := hcomplete a b k ha hk hab
      rw [hnone] at hsome
      exact absurd hsome (by simp)
    have hdeliver : net.deliver ⟨a, b, update.timestamp⟩
        = net.take ⟨a, b, update.timestamp⟩ rest := by
      rcases h.deliver_cases (timely_at_timestamp update a b) with
        ⟨hq', _⟩ | ⟨_, rest', hq', _, heq⟩ | ⟨_, _, _, _, _, _, _, hdst, _⟩
      · exact absurd (hq.symm.trans hq') (by simp)
      · obtain ⟨_, rfl⟩ := List.cons.inj (hq.symm.trans hq')
        exact heq
      · exact absurd hdst hb
    have htake : Flood update depth (net.take ⟨a, b, update.timestamp⟩ rest) := h.take hq hb
    obtain ⟨hops, htimely, hflood, hempty, hkeep⟩ :=
      @ih (net.take ⟨a, b, update.timestamp⟩ rest) hcomplete htake (if_pos ⟨rfl, rfl⟩)
    refine ⟨⟨a, b, update.timestamp⟩ :: hops,
      (timely_singleton update a b).append htimely, ?_⟩
    have hrun : net.run (⟨a, b, update.timestamp⟩ :: hops)
        = (net.take ⟨a, b, update.timestamp⟩ rest).run hops :=
      congrArg (Network.run · hops) hdeliver
    rw [hrun]
    refine ⟨hflood, hempty, fun a' b' he => hkeep a' b' ?_⟩
    refine (if_neg ?_).trans he
    rintro ⟨rfl, rfl⟩
    exact absurd (hq.symm.trans he) (by simp)

/-- A complete flood can come to rest as it is. -/
theorem exists_run_drain {depth : NodeId → Option Nat} (h : Flood update depth net)
    (hcomplete : Complete net.Linked maxHops depth) :
    ∃ hops, Timely update hops ∧ Flood update depth (net.run hops) ∧ (net.run hops).Quiet := by
  suffices hall : ∀ pairs : Finset (NodeId × NodeId), ∃ hops, Timely update hops ∧
      Flood update depth (net.run hops) ∧ ∀ p ∈ pairs, (net.run hops).links p.1 p.2 = [] by
    obtain ⟨hops, htimely, hflood, hempty⟩ := hall Finset.univ
    exact ⟨hops, htimely, hflood, fun a b => hempty (a, b) (by simp)⟩
  intro pairs
  induction pairs using Finset.induction_on with
  | empty =>
    exact ⟨[], fun _ hx => absurd hx List.not_mem_nil, h,
      fun _ hp => absurd hp (Finset.notMem_empty _)⟩
  | insert p pairs _ ih =>
    obtain ⟨hops, htimely, hflood, hempty⟩ := ih
    have hcomplete' : Complete (net.run hops).Linked maxHops depth := by
      unfold Network.Linked
      rw [run_sessions]
      exact hcomplete
    obtain ⟨hops', htimely', hflood', hp, hkeep⟩ :=
      exists_run_drain_link hcomplete' p.1 p.2 hflood
    refine ⟨hops ++ hops', htimely.append htimely', ?_⟩
    rw [run_append]
    refine ⟨hflood', fun q hq => ?_⟩
    rcases Finset.mem_insert.mp hq with rfl | hq'
    · exact hp
    · exact hkeep q.1 q.2 (hempty q hq')

end

/-! ## When a flood reaches everyone -/

/-- In a flood, a node holds the update exactly when it has been reached. -/
theorem Flood.holds_iff {update : TopologyUpdate} {depth : NodeId → Option Nat} {net : Network}
    (h : Flood update depth net) (v : NodeId) :
    (net.dbs v).Holds update.originatorNode update.sequenceNumber ↔ (depth v).isSome := by
  cases hv : depth v with
  | some k => exact ⟨fun _ => rfl, fun _ => h.holds v k hv⟩
  | none =>
    refine ⟨?_, fun hsome => absurd hsome (by simp)⟩
    rintro ⟨entry, hl, hseq⟩
    have hself := h.unheard v hv entry hl
    rw [hseq, not_isNewerThan_self] at hself
    exact absurd hself (by simp)

section

variable {net : Network} {originator : NodeId} (hready : net.Ready originator) (now : Nat)
  (neighbors : List NeighborInfo)

theorem issue_run_linked (hops : List Hop) :
    ((net.issue originator now neighbors).run hops).Linked = net.Linked := by
  unfold Network.Linked
  rw [run_sessions]
  rfl

include hready

theorem advertisement_originatorNode :
    (net.advertisement originator now neighbors).originatorNode = originator :=
  hready.localNodeId

/-- Wherever a flood comes to rest, the nodes it has reached form a complete
spread. -/
theorem spread_of_quiet {hops : List Hop}
    (htimely : Timely (net.advertisement originator now neighbors) hops)
    (hquiet : ((net.issue originator now neighbors).run hops).Quiet) :
    ∃ depth, Spread net.Linked originator maxHops depth ∧ Complete net.Linked maxHops depth ∧
      ∀ v, (((net.issue originator now neighbors).run hops).dbs v).Holds originator
        (net.dbs originator).localSequence ↔ (depth v).isSome := by
  obtain ⟨depth, hflood⟩ := (hready.issue now neighbors).run htimely
  have hspread := hflood.spread
  have hcomplete := hflood.complete hquiet
  have hholds := hflood.holds_iff
  rw [issue_run_linked, advertisement_originatorNode hready] at hspread
  rw [issue_run_linked] at hcomplete
  rw [advertisement_originatorNode hready] at hholds
  exact ⟨depth, hspread, hcomplete, hholds⟩

/-- Every complete spread is where the flood comes to rest in some order of
delivery. -/
theorem exists_quiet_of_spread {depth : NodeId → Option Nat}
    (hspread : Spread net.Linked originator maxHops depth)
    (hcomplete : Complete net.Linked maxHops depth) :
    ∃ hops, Timely (net.advertisement originator now neighbors) hops ∧
      ((net.issue originator now neighbors).run hops).Quiet ∧
      ∀ v, (((net.issue originator now neighbors).run hops).dbs v).Holds originator
        (net.dbs originator).localSequence ↔ (depth v).isSome := by
  have horig := advertisement_originatorNode hready now neighbors
  have hstart : Flood (net.advertisement originator now neighbors)
      (atRoot (net.advertisement originator now neighbors).originatorNode)
      (net.issue originator now neighbors) := by
    rw [horig]
    exact hready.issue now neighbors
  rw [← horig] at hspread
  obtain ⟨hops, htimely, hflood⟩ := exists_run_of_spread hstart hspread
  rw [← issue_run_linked now neighbors hops] at hcomplete
  obtain ⟨hops', htimely', hflood', hquiet⟩ := exists_run_drain hflood hcomplete
  rw [← run_append] at hflood' hquiet
  refine ⟨hops ++ hops', htimely.append htimely', hquiet, ?_⟩
  have hholds := hflood'.holds_iff
  rw [horig] at hholds
  exact hholds

end

/-- **When a flood reaches everyone.** Whatever the order of delivery, every
member holds the advertisement once no copy is in flight, exactly when every
complete spread of `DEFAULT_TOPOLOGY_TTL` hops over the sessions, from the
originator, reaches every member. -/
theorem flood_reaches_iff {net : Network} {originator : NodeId} (hready : net.Ready originator)
    (now : Nat) (neighbors : List NeighborInfo) (members : Finset NodeId) :
    (∀ hops, Timely (net.advertisement originator now neighbors) hops →
      ((net.issue originator now neighbors).run hops).Quiet → ∀ v ∈ members,
        (((net.issue originator now neighbors).run hops).dbs v).Holds originator
          (net.dbs originator).localSequence) ↔
      ∀ depth, Spread net.Linked originator maxHops depth → Complete net.Linked maxHops depth →
        ∀ v ∈ members, (depth v).isSome := by
  constructor
  · -- a complete spread that left a member out would be the outcome of some order
    intro hall depth hspread hcomplete v hv
    obtain ⟨hops, htimely, hquiet, hholds⟩ :=
      exists_quiet_of_spread hready now neighbors hspread hcomplete
    exact (hholds v).mp (hall hops htimely hquiet v hv)
  · intro hall hops htimely hquiet v hv
    obtain ⟨depth, hspread, hcomplete, hholds⟩ :=
      spread_of_quiet hready now neighbors htimely hquiet
    exact (hholds v).mpr (hall depth hspread hcomplete v hv)

/-- A network of new nodes with the given sessions. -/
def newNetwork (sessions : List (NodeId × NodeId)) : Network :=
  { sessions := fun a => ((sessions.filter fun e => e.1 = a).map Prod.snd).toFinset
    dbs := TopologyDatabase.new
    links := fun _ _ => [] }

theorem newNetwork_linked {sessions : List (NodeId × NodeId)} {a b : NodeId} :
    (newNetwork sessions).Linked a b ↔ (a, b) ∈ sessions := by
  unfold Network.Linked newNetwork
  simp

theorem newNetwork_ready (sessions : List (NodeId × NodeId)) (originator : NodeId) :
    (newNetwork sessions).Ready originator where
  quiet := fun _ _ => rfl
  localNodeId := rfl
  news := fun _ _ _ hentry => absurd hentry (by simp [newNetwork, TopologyDatabase.new])

/-- Two nodes with one session: whatever the order, node 2 gets the advertisement
of node 1. -/
theorem flood_reaches_pair :
    (newNetwork [(1, 2), (2, 1)]).Ready 1 ∧
      ∀ hops, Timely ((newNetwork [(1, 2), (2, 1)]).advertisement 1 0 []) hops →
        (((newNetwork [(1, 2), (2, 1)]).issue 1 0 []).run hops).Quiet →
          ∀ v ∈ ({1, 2} : Finset NodeId),
            ((((newNetwork [(1, 2), (2, 1)]).issue 1 0 []).run hops).dbs v).Holds 1 1 := by
  refine ⟨newNetwork_ready _ 1, (flood_reaches_iff (newNetwork_ready _ 1) 0 [] {1, 2}).mpr ?_⟩
  intro depth hspread hcomplete v hv
  rcases Finset.mem_insert.mp hv with rfl | hv'
  · rw [hspread.root_depth]
    rfl
  · rw [Finset.mem_singleton.mp hv']
    refine hcomplete 1 2 0 hspread.root_depth (by decide) (newNetwork_linked.mpr ?_)
    exact List.mem_cons_self ..

/-- At most this many hops from the originator. -/
inductive Network.WithinHops (net : Network) (originator : NodeId) : Nat → NodeId → Prop where
  | origin (k : Nat) : WithinHops net originator k originator
  | hop {k : Nat} {a b : NodeId} :
      WithinHops net originator k a → net.Linked a b → WithinHops net originator (k + 1) b

/-- Node 1 can reach node 9 directly, and the long way round over nodes 2 to 8;
node 10 is behind node 9. -/
def detour : List (NodeId × NodeId) :=
  [(1, 2), (2, 1), (2, 3), (3, 2), (3, 4), (4, 3), (4, 5), (5, 4), (5, 6), (6, 5), (6, 7), (7, 6),
    (7, 8), (8, 7), (8, 9), (9, 8), (1, 9), (9, 1), (9, 10), (10, 9)]

/-- The copies that go the long way round arrive first. -/
def detourHops : List Hop :=
  [⟨1, 2, 0⟩, ⟨2, 3, 0⟩, ⟨3, 4, 0⟩, ⟨4, 5, 0⟩, ⟨5, 6, 0⟩, ⟨6, 7, 0⟩, ⟨7, 8, 0⟩, ⟨8, 9, 0⟩,
    ⟨1, 9, 0⟩, ⟨2, 1, 0⟩, ⟨3, 2, 0⟩, ⟨4, 3, 0⟩, ⟨5, 4, 0⟩, ⟨6, 5, 0⟩, ⟨7, 6, 0⟩, ⟨8, 7, 0⟩]

/-- The state after node 1 has issued an advertisement and these copies have
arrived. -/
def detourRun : Network :=
  ((newNetwork detour).issue 1 0 [⟨2, 100, none⟩, ⟨9, 100, none⟩]).run detourHops

theorem detourHops_timely : Timely ((newNetwork detour).advertisement 1 0
    [⟨2, 100, none⟩, ⟨9, 100, none⟩]) detourHops := by
  have hall : detourHops.all (fun hop => hop.now = 0) = true := by decide
  intro hop hhop
  rw [of_decide_eq_true (List.all_eq_true.mp hall hop hhop)]
  exact Nat.zero_le _

theorem detourRun_quiet : detourRun.Quiet := by
  have hempty : detour.all (fun e => (detourRun.links e.1 e.2).isEmpty) = true := by
    decide +kernel
  obtain ⟨depth, hflood⟩ := ((newNetwork_ready detour 1).issue 0 _).run detourHops_timely
  intro a b
  refine List.eq_nil_iff_forall_not_mem.mpr ?_
  intro copy hcopy
  -- a copy travels over a session, and all of these are empty
  obtain ⟨_, _, _, hab, _⟩ := hflood.copies a b copy hcopy
  rw [issue_run_linked] at hab
  have hnil := List.all_eq_true.mp hempty (a, b) (newNetwork_linked.mp hab)
  rw [List.isEmpty_iff.mp hnil] at hcopy
  exact absurd hcopy List.not_mem_nil

theorem mem_of_lookup {v : NodeId} {k : Nat} {l : List (NodeId × Nat)} (h : l.lookup v = some k) :
    (v, k) ∈ l := by
  obtain ⟨l₁, l₂, heq, _⟩ := List.lookup_eq_some_iff.mp h
  rw [heq]
  simp

/-- Hop counts as a list, checked entry by entry. -/
theorem spread_of_labels {sessions : List (NodeId × NodeId)} {labels : List (NodeId × Nat)}
    (hstart : labels.lookup 1 = some 0) (hroot : ∀ p ∈ labels, p.2 = 0 → p.1 = 1)
    (hreached : ∀ p ∈ labels, p.2 ≠ 0 → p.2 - 1 < maxHops ∧ ∃ q ∈ labels,
      labels.lookup q.1 = some (p.2 - 1) ∧ (q.1, p.1) ∈ sessions) :
    Spread (newNetwork sessions).Linked 1 maxHops (labels.lookup ·) := by
  refine ⟨hstart, fun v hv => hroot (v, 0) (mem_of_lookup hv) rfl, fun v k hv => ?_⟩
  obtain ⟨hk, q, _, hq, hlink⟩ := hreached (v, k + 1) (mem_of_lookup hv) (Nat.succ_ne_zero k)
  exact ⟨hk, q.1, hq, newNetwork_linked.mpr hlink⟩

/-- A node of a spread is at most its hop count away. -/
theorem withinHops_of_spread {net : Network} {originator : NodeId} {depth : NodeId → Option Nat}
    (h : Spread net.Linked originator maxHops depth) {k : Nat} {v : NodeId}
    (hv : depth v = some k) : net.WithinHops originator k v := by
  induction k generalizing v with
  | zero =>
    rw [h.root_unique v hv]
    exact .origin 0
  | succ k ih =>
    obtain ⟨_, u, hu, huv⟩ := h.reached v k hv
    exact .hop (ih hu) huv

/-- The least hop counts of the detour: every node is near node 1. -/
def detourNear : List (NodeId × Nat) :=
  [(1, 0), (2, 1), (9, 1), (3, 2), (8, 2), (10, 2), (4, 3), (7, 3), (5, 4), (6, 4)]

/-- All ten nodes of the detour are within four hops of node 1, but the copies
can be delivered in such an order that nothing is in flight any more and node 10
has not heard of node 1: node 9 accepted the copy that came the long way round,
with a TTL of 1, and later rejected the direct one as a duplicate. -/
theorem flood_stalls :
    ¬ ∀ (net : Network) (originator : NodeId) (now : Nat) (neighbors : List NeighborInfo)
      (members : Finset NodeId), net.Ready originator →
      (∀ v ∈ members, ∃ k ≤ maxHops, net.WithinHops originator k v) →
      ∀ hops, Timely (net.advertisement originator now neighbors) hops →
        ((net.issue originator now neighbors).run hops).Quiet → ∀ v ∈ members,
          (((net.issue originator now neighbors).run hops).dbs v).Holds originator
            (net.dbs originator).localSequence := by
  intro hclaim
  have hnear : Spread (newNetwork detour).Linked 1 maxHops (detourNear.lookup ·) :=
    spread_of_labels rfl (by decide) (by decide)
  have hmembers : ∀ v ∈ (detourNear.map Prod.fst).toFinset,
      ∃ k ≤ maxHops, (newNetwork detour).WithinHops 1 k v := by
    intro v hv
    obtain ⟨p, hp, rfl⟩ := List.mem_map.mp (List.mem_toFinset.mp hv)
    have hall : ∀ p ∈ detourNear, p.2 ≤ maxHops ∧ detourNear.lookup p.1 = some p.2 := by decide
    exact ⟨p.2, (hall p hp).1, withinHops_of_spread hnear (hall p hp).2⟩
  obtain ⟨entry, hentry, _⟩ := hclaim (newNetwork detour) 1 0 [⟨2, 100, none⟩, ⟨9, 100, none⟩]
    (detourNear.map Prod.fst).toFinset (newNetwork_ready detour 1) hmembers detourHops
    detourHops_timely detourRun_quiet 10 (by decide)
  have hnone : ((detourRun.dbs 10).nodes.lookup 1).isNone = true := by decide +kernel
  change (detourRun.dbs 10).nodes.lookup 1 = some entry at hentry
  rw [hentry] at hnone
  exact absurd hnone (by simp)

end MeshCore.Topology
