import MeshCore.Lib.Serial
import MeshCore.Topology.Routes

/-!
# Flooded updates converge

`process_topology_update` keeps the newest advertisement of every originator.
"Newer" is a comparison of wrapping sequence numbers, and is no order at all on
the full `u64` circle; inside one window of fewer than 2^63 values it is the
order of the offsets from the window's start (`isNewerThan_iff_rank`), which is
what the argument needs.

`Folded` describes a database after a list of calls: the entry of every
originator heard of comes from a call of highest rank, and every other entry is
untouched. One call keeps it (`Folded.step`), so a run ends with the newest
update of every originator whatever the order and the repetitions
(`run_folded`), and the routes, being a function of the links, agree as well.
-/

namespace MeshCore.Topology

open MeshCore.Lib

/-! ## Sequence numbers -/

theorem toInt64_pos_iff (d : UInt64) : 0 < d.toInt64 ↔ 0 < d.toNat ∧ d.toNat < 2 ^ 63 := by
  have hlt := d.toNat_lt
  rw [Int64.lt_iff_toInt_lt]
  show (0 : Int) < d.toBitVec.toInt ↔ _
  rw [BitVec.toInt_eq_toNat_cond]
  show (0 : Int) < (if 2 * d.toNat < 2 ^ 64 then (d.toNat : Int) else _) ↔ _
  split <;> omega

/-- The offset of an update's sequence number from the start of its
originator's window. -/
def rank (base : NodeId → UInt64) (u : TopologyUpdate) : Nat :=
  (u.sequenceNumber - base u.originatorNode).toNat

theorem isNewerThan_iff_isNewer {u : TopologyUpdate} {seq : UInt64} :
    u.isNewerThan seq = true ↔ Serial.IsNewer (w := 63) u.sequenceNumber.toBitVec seq.toBitVec := by
  unfold TopologyUpdate.isNewerThan
  rw [decide_eq_true_iff, toInt64_pos_iff, Serial.isNewer_iff]
  exact Iff.rfl

/-- Inside a window, newer means further from its start. -/
theorem isNewerThan_iff_rank {base : NodeId → UInt64} {u v : TopologyUpdate}
    (ho : u.originatorNode = v.originatorNode) (hu : rank base u < 2 ^ 63)
    (hv : rank base v < 2 ^ 63) :
    u.isNewerThan v.sequenceNumber = true ↔ rank base v < rank base u := by
  unfold rank at *
  rw [← ho] at hv ⊢
  exact isNewerThan_iff_isNewer.trans (Serial.isNewer_iff_offset_lt hu hv)

theorem sequenceNumber_eq_of_rank {base : NodeId → UInt64} {u v : TopologyUpdate}
    (ho : u.originatorNode = v.originatorNode) (h : rank base u = rank base v) :
    u.sequenceNumber = v.sequenceNumber := by
  unfold rank at h
  rw [ho] at h
  have hadd := congrArg (· + base v.originatorNode) (UInt64.toNat.inj h)
  simpa only [UInt64.sub_add_cancel] using hadd

/-- No sequence number is newer than itself. -/
theorem not_isNewerThan_self (u : TopologyUpdate) : u.isNewerThan u.sequenceNumber = false := by
  rw [← Bool.not_eq_true, isNewerThan_iff_isNewer]
  exact Serial.not_isNewer_self _

/-! ## One call -/

/-- The entry an accepted update leaves. -/
def entryOf (now : Nat) (u : TopologyUpdate) : NodeInfo :=
  { nodeId := u.originatorNode, sequenceNumber := u.sequenceNumber, lastUpdated := now
    neighbors := TopologyDatabase.neighborMap now u.neighbors }

@[simp] theorem entryOf_sequenceNumber (now : Nat) (u : TopologyUpdate) :
    (entryOf now u).sequenceNumber = u.sequenceNumber := rfl

theorem process_old (db : TopologyDatabase) {now : Nat} {u : TopologyUpdate}
    (hold : maxTopologyAgeSecs < now - u.timestamp) :
    db.processTopologyUpdate now u = (false, db) := by
  unfold TopologyDatabase.processTopologyUpdate
  rw [if_pos hold]

/-- `process_topology_update` writes the nodes and the routes only. -/
theorem process_frame (db : TopologyDatabase) (now : Nat) (u : TopologyUpdate) :
    ∃ nodes routes, (db.processTopologyUpdate now u).2 = { db with nodes, routes } := by
  unfold TopologyDatabase.processTopologyUpdate
  split
  · exact ⟨_, _, rfl⟩
  · split
    · exact ⟨_, _, rfl⟩
    · exact ⟨_, _, rfl⟩

/-- And so does `cleanup_old_entries`. -/
theorem cleanup_frame (db : TopologyDatabase) (now : Nat) :
    ∃ nodes routes, db.cleanupOldEntries now = { db with nodes, routes } := by
  unfold TopologyDatabase.cleanupOldEntries
  dsimp only
  split
  · exact ⟨_, _, rfl⟩
  · exact ⟨_, _, rfl⟩

/-- A fresh update is either superseded by the entry it meets, and changes
nothing, or replaces it. -/
theorem process_fresh (db : TopologyDatabase) {now : Nat} {u : TopologyUpdate}
    (hfresh : now - u.timestamp ≤ maxTopologyAgeSecs) :
    (∃ existing, db.nodes.lookup u.originatorNode = some existing ∧
      u.isNewerThan existing.sequenceNumber = false ∧
      db.processTopologyUpdate now u = (false, db)) ∨
    ((∀ existing, db.nodes.lookup u.originatorNode = some existing →
        u.isNewerThan existing.sequenceNumber = true) ∧
      db.processTopologyUpdate now u = (true, TopologyDatabase.computeRoutes
        { db with nodes := db.nodes.insert u.originatorNode (entryOf now u) })) := by
  unfold TopologyDatabase.processTopologyUpdate
  rw [if_neg (Nat.not_lt.mpr hfresh)]
  cases hl : db.nodes.lookup u.originatorNode with
  | none => exact Or.inr ⟨fun _ h => absurd h (by simp), rfl⟩
  | some existing =>
    cases hn : u.isNewerThan existing.sequenceNumber with
    | false => exact Or.inl ⟨existing, rfl, hn, by simp [hn]⟩
    | true =>
      refine Or.inr ⟨fun e he => ?_, by simp [hn]; rfl⟩
      obtain rfl := Option.some.inj he
      exact hn

/-! ## Databases built through the interface -/

/-- The databases there are: the fields are private, so every value comes from
`new` through the public operations. -/
inductive Reachable : TopologyDatabase → Prop where
  | new (localNodeId : NodeId) : Reachable (TopologyDatabase.new localNodeId)
  | nextSequenceNumber {db : TopologyDatabase} :
      Reachable db → Reachable db.nextSequenceNumber.2
  | updateLocalNeighbors {db : TopologyDatabase} (now : Nat) (neighbors : List NeighborInfo) :
      Reachable db → Reachable (db.updateLocalNeighbors now neighbors).2
  | processTopologyUpdate {db : TopologyDatabase} (now : Nat) (update : TopologyUpdate) :
      Reachable db → Reachable (db.processTopologyUpdate now update).2
  | cleanupOldEntries {db : TopologyDatabase} (now : Nat) :
      Reachable db → Reachable (db.cleanupOldEntries now)

/-- The routes are those of the nodes. -/
def Settled (db : TopologyDatabase) : Prop := db.computeRoutes = db

theorem settled_computeRoutes (db : TopologyDatabase) : Settled db.computeRoutes := rfl

theorem settled_new (localNodeId : NodeId) : Settled (TopologyDatabase.new localNodeId) := by
  have hroutes : buildRoutes localNodeId (search localNodeId ∅) = ∅ := by
    have hsearch : search localNodeId ∅
        = { distances := AList.insert localNodeId 0 ∅, previous := ∅, unvisited := [] } := by
      show visit ∅ { distances := AList.insert localNodeId 0 ∅, previous := ∅, unvisited := _ }
        0 localNodeId = _
      unfold visit
      simp [least]
    rw [hsearch]
    unfold buildRoutes
    simp [AList.insert]
  unfold Settled TopologyDatabase.computeRoutes TopologyDatabase.new
  rw [hroutes]

theorem settled_process {db : TopologyDatabase} (h : Settled db) (now : Nat)
    (update : TopologyUpdate) : Settled (db.processTopologyUpdate now update).2 := by
  unfold TopologyDatabase.processTopologyUpdate
  split
  · exact h
  · split
    · exact h
    · exact settled_computeRoutes _

/-- Every operation that changes the nodes recomputes the routes. -/
theorem Reachable.settled {db : TopologyDatabase} (h : Reachable db) : Settled db := by
  induction h with
  | new localNodeId => exact settled_new localNodeId
  | nextSequenceNumber _ ih =>
    exact congrArg (fun db : TopologyDatabase => db.nextSequenceNumber.2) ih
  | updateLocalNeighbors => exact settled_computeRoutes _
  | processTopologyUpdate now update _ ih => exact settled_process ih now update
  | cleanupOldEntries now _ ih =>
    unfold TopologyDatabase.cleanupOldEntries
    dsimp only
    split
    · exact ih
    · exact settled_computeRoutes _

/-! ## Runs of calls -/

/-- A sequence of `process_topology_update` calls, each with the time it is made
at. -/
def runUpdates (db : TopologyDatabase) (calls : List (Nat × TopologyUpdate)) : TopologyDatabase :=
  calls.foldl (fun db c => (db.processTopologyUpdate c.1 c.2).2) db

/-- Updates that can be ordered: equal sequence numbers of one originator mean
equal neighbours, and the sequence numbers of each originator lie in a window of
fewer than 2^63 consecutive values modulo 2^64. -/
structure Ordered (U : Finset TopologyUpdate) : Prop where
  functional : ∀ u ∈ U, ∀ v ∈ U, u.originatorNode = v.originatorNode →
    u.sequenceNumber = v.sequenceNumber → u.neighbors = v.neighbors
  window : ∀ o, ∃ (base : UInt64) (len : Nat), len < 2 ^ 63 ∧
    ∀ u ∈ U, u.originatorNode = o → (u.sequenceNumber - base).toNat < len

/-- The calls contain every update of `U` and nothing else, and the age check
passes at each of them. -/
structure Delivers (U : Finset TopologyUpdate) (calls : List (Nat × TopologyUpdate)) : Prop where
  complete : ∀ u ∈ U, ∃ c ∈ calls, c.2 = u
  within : ∀ c ∈ calls, c.2 ∈ U
  fresh : ∀ c ∈ calls, c.1 - c.2.timestamp ≤ maxTopologyAgeSecs

/-- The call is about `o`, and no call about `o` outranks it. -/
def Highest (base : NodeId → UInt64) (calls : List (Nat × TopologyUpdate)) (o : NodeId)
    (u : TopologyUpdate) : Prop :=
  u.originatorNode = o ∧ (∃ c ∈ calls, c.2 = u) ∧
    ∀ c ∈ calls, c.2.originatorNode = o → rank base c.2 ≤ rank base u

/-- What a list of calls has made of the nodes `m₀`. -/
structure Folded (base : NodeId → UInt64) (m₀ : NodeMap) (calls : List (Nat × TopologyUpdate))
    (m : NodeMap) : Prop where
  heard : ∀ c ∈ calls, ∃ now u, Highest base calls c.2.originatorNode u ∧
    m.lookup c.2.originatorNode = some (entryOf now u)
  unheard : ∀ o, (∀ c ∈ calls, c.2.originatorNode ≠ o) → m.lookup o = m₀.lookup o

/-- A call about another originator changes nothing about what is highest. -/
theorem Highest.append_other {base : NodeId → UInt64} {calls : List (Nat × TopologyUpdate)}
    {o : NodeId} {u : TopologyUpdate} {c : Nat × TopologyUpdate} (h : Highest base calls o u)
    (hc : c.2.originatorNode = o → rank base c.2 ≤ rank base u) :
    Highest base (calls ++ [c]) o u := by
  obtain ⟨ho, ⟨d, hd, hdu⟩, hmax⟩ := h
  refine ⟨ho, ⟨d, List.mem_append_left _ hd, hdu⟩, fun x hx hxo => ?_⟩
  rcases List.mem_append.mp hx with hx' | hx'
  · exact hmax x hx' hxo
  · obtain rfl := List.mem_singleton.mp hx'
    exact hc hxo

/-- The highest call about an originator outranks the others about it. -/
theorem Highest.rank_le {base : NodeId → UInt64} {calls : List (Nat × TopologyUpdate)}
    {o : NodeId} {u v : TopologyUpdate} (hu : Highest base calls o u)
    (hv : Highest base calls o v) : rank base v ≤ rank base u := by
  obtain ⟨c, hc, rfl⟩ := hv.2.1
  exact hu.2.2 c hc hv.1

/-- A call that is superseded. -/
theorem Folded.reject {base : NodeId → UInt64} {m₀ m : NodeMap}
    {calls : List (Nat × TopologyUpdate)} {c : Nat × TopologyUpdate} {now : Nat}
    {u : TopologyUpdate} (h : Folded base m₀ calls m)
    (hu : Highest base calls c.2.originatorNode u)
    (hl : m.lookup c.2.originatorNode = some (entryOf now u)) (hle : rank base c.2 ≤ rank base u) :
    Folded base m₀ (calls ++ [c]) m := by
  refine ⟨fun x hx => ?_, fun o ho => ?_⟩
  · rcases List.mem_append.mp hx with hx' | hx'
    · obtain ⟨now', u', hu', hlu'⟩ := h.heard x hx'
      refine ⟨now', u', hu'.append_other fun hxo => ?_, hlu'⟩
      rw [← hxo] at hu'
      exact Nat.le_trans hle (hu'.rank_le hu)
    · rw [List.mem_singleton.mp hx']
      exact ⟨now, u, hu.append_other fun _ => hle, hl⟩
  · exact h.unheard o fun x hx => ho x (List.mem_append_left _ hx)

/-- A call that is accepted. -/
theorem Folded.accept {base : NodeId → UInt64} {m₀ m : NodeMap}
    {calls : List (Nat × TopologyUpdate)} {c : Nat × TopologyUpdate} (h : Folded base m₀ calls m)
    (hmax : ∀ x ∈ calls, x.2.originatorNode = c.2.originatorNode → rank base x.2 ≤ rank base c.2) :
    Folded base m₀ (calls ++ [c]) (m.insert c.2.originatorNode (entryOf c.1 c.2)) := by
  have hself : Highest base (calls ++ [c]) c.2.originatorNode c.2 := by
    refine ⟨rfl, ⟨c, by simp, rfl⟩, fun x hx hxo => ?_⟩
    rcases List.mem_append.mp hx with hx' | hx'
    · exact hmax x hx' hxo
    · rw [List.mem_singleton.mp hx']
  refine ⟨fun x hx => ?_, fun o ho => ?_⟩
  · rw [HashMap.lookup_insert_ite]
    by_cases hxo : x.2.originatorNode = c.2.originatorNode
    · rw [if_pos hxo, hxo]
      exact ⟨c.1, c.2, hself, rfl⟩
    · rw [if_neg hxo]
      rcases List.mem_append.mp hx with hx' | hx'
      · obtain ⟨now, u, hu, hlu⟩ := h.heard x hx'
        exact ⟨now, u, hu.append_other fun hcx => absurd hcx.symm hxo, hlu⟩
      · exact absurd (by rw [List.mem_singleton.mp hx']) hxo
  · rw [HashMap.lookup_insert_ite, if_neg (fun he => ho c (by simp) he.symm)]
    exact h.unheard o fun x hx => ho x (List.mem_append_left _ hx)

/-- What the entry of an originator, if any, says about the calls made so far. -/
theorem Folded.before {base : NodeId → UInt64} {m₀ m : NodeMap}
    {calls : List (Nat × TopologyUpdate)} {c : Nat × TopologyUpdate} (h : Folded base m₀ calls m)
    (hrank : ∀ x ∈ calls ++ [c], rank base x.2 < 2 ^ 63)
    (hnone : m₀.lookup c.2.originatorNode = none) :
    (m.lookup c.2.originatorNode = none ∧
      ∀ x ∈ calls, x.2.originatorNode ≠ c.2.originatorNode) ∨
    ∃ now u, Highest base calls c.2.originatorNode u ∧
      m.lookup c.2.originatorNode = some (entryOf now u) ∧
      (c.2.isNewerThan u.sequenceNumber = true ↔ rank base u < rank base c.2) := by
  by_cases hex : ∃ x ∈ calls, x.2.originatorNode = c.2.originatorNode
  · obtain ⟨x, hx, hxo⟩ := hex
    obtain ⟨now, u, hu, hl⟩ := h.heard x hx
    rw [hxo] at hu hl
    obtain ⟨y, hy, hyu⟩ := hu.2.1
    have hur : rank base u < 2 ^ 63 := hyu ▸ hrank y (List.mem_append_left _ hy)
    exact Or.inr ⟨now, u, hu, hl, isNewerThan_iff_rank hu.1.symm (hrank c (by simp)) hur⟩
  · have hall : ∀ x ∈ calls, x.2.originatorNode ≠ c.2.originatorNode :=
      fun x hx hxo => hex ⟨x, hx, hxo⟩
    exact Or.inl ⟨(h.unheard _ hall).trans hnone, hall⟩

/-- **One call.** -/
theorem Folded.step {base : NodeId → UInt64} {m₀ : NodeMap} {db : TopologyDatabase}
    {calls : List (Nat × TopologyUpdate)} {c : Nat × TopologyUpdate}
    (h : Folded base m₀ calls db.nodes) (hrank : ∀ x ∈ calls ++ [c], rank base x.2 < 2 ^ 63)
    (hnone : m₀.lookup c.2.originatorNode = none)
    (hfresh : c.1 - c.2.timestamp ≤ maxTopologyAgeSecs) :
    Folded base m₀ (calls ++ [c]) (db.processTopologyUpdate c.1 c.2).2.nodes := by
  have hbefore := h.before hrank hnone
  rcases process_fresh db hfresh with ⟨existing, hl, hnew, heq⟩ | ⟨hnew, heq⟩
  · -- superseded: the entry it met is of the highest call so far, and stays that
    rw [heq]
    rcases hbefore with ⟨hl', -⟩ | ⟨now, u, hu, hl', hiff⟩
    · rw [hl'] at hl
      exact absurd hl (by simp)
    · rw [hl'] at hl
      obtain rfl := Option.some.inj hl
      rw [entryOf_sequenceNumber] at hnew
      refine h.reject hu hl' (Nat.le_of_not_lt fun hlt => ?_)
      exact Bool.false_ne_true (hnew.symm.trans (hiff.mpr hlt))
  · -- accepted: it outranks the entry, and so every call before it
    rw [heq]
    refine h.accept fun x hx hxo => ?_
    rcases hbefore with ⟨-, hall⟩ | ⟨now, u, hu, hl', hiff⟩
    · exact absurd hxo (hall x hx)
    · have hn := hnew _ hl'
      rw [entryOf_sequenceNumber, hiff] at hn
      exact Nat.le_of_lt (Nat.lt_of_le_of_lt (hu.2.2 x hx hxo) hn)

/-- **A run keeps the highest-ranked update of every originator.** -/
theorem run_folded {base : NodeId → UInt64} {db : TopologyDatabase}
    {calls : List (Nat × TopologyUpdate)} (hrank : ∀ c ∈ calls, rank base c.2 < 2 ^ 63)
    (hnone : ∀ c ∈ calls, db.nodes.lookup c.2.originatorNode = none)
    (hfresh : ∀ c ∈ calls, c.1 - c.2.timestamp ≤ maxTopologyAgeSecs) :
    Folded base db.nodes calls (runUpdates db calls).nodes := by
  induction calls using List.reverseRecOn with
  | nil => exact ⟨fun c hc => absurd hc (by simp), fun _ _ => rfl⟩
  | append_singleton calls c ih =>
    have hsub : ∀ x ∈ calls, x ∈ calls ++ [c] := fun x hx => List.mem_append_left _ hx
    have hrun : runUpdates db (calls ++ [c])
        = ((runUpdates db calls).processTopologyUpdate c.1 c.2).2 := by
      unfold runUpdates
      rw [List.foldl_append]
      rfl
    rw [hrun]
    exact Folded.step (ih (fun x hx => hrank x (hsub x hx)) (fun x hx => hnone x (hsub x hx))
      fun x hx => hfresh x (hsub x hx)) hrank (hnone c (by simp)) (hfresh c (by simp))

theorem settled_run {db : TopologyDatabase} (h : Settled db)
    (calls : List (Nat × TopologyUpdate)) : Settled (runUpdates db calls) := by
  induction calls generalizing db with
  | nil => exact h
  | cons c calls ih => exact ih (settled_process h c.1 c.2)

theorem run_localNodeId (db : TopologyDatabase) (calls : List (Nat × TopologyUpdate)) :
    (runUpdates db calls).localNodeId = db.localNodeId := by
  induction calls generalizing db with
  | nil => rfl
  | cons c calls ih =>
    obtain ⟨nodes, routes, hframe⟩ := process_frame db c.1 c.2
    refine (ih _).trans ?_
    dsimp only
    rw [hframe]

/-! ## Convergence -/

/-- `u` is the newest update of its originator in `U`. -/
def Newest (U : Finset TopologyUpdate) (u : TopologyUpdate) : Prop :=
  u ∈ U ∧ ∀ v ∈ U, v.originatorNode = u.originatorNode →
    v.sequenceNumber = u.sequenceNumber ∨ u.isNewerThan v.sequenceNumber = true

/-- The database has the content of `u` for its originator: its sequence number,
and for every neighbour the cost and address that `u` lists last. -/
def Holds (db : TopologyDatabase) (u : TopologyUpdate) : Prop :=
  ∃ info, db.nodes.lookup u.originatorNode = some info ∧
    info.sequenceNumber = u.sequenceNumber ∧
    ∀ v, (info.neighbors.lookup v).map (fun link => (link.cost, link.addr))
      = (u.neighbors.reverse.find? fun n => n.nodeId = v).map fun n => (n.cost, n.addr)

theorem neighborMap_lookup (now : Nat) (neighbors : List NeighborInfo) (v : NodeId) :
    (TopologyDatabase.neighborMap now neighbors).lookup v
      = (neighbors.reverse.find? fun n => n.nodeId = v).map
          fun n => { cost := n.cost, addr := n.addr, lastSeen := now } := by
  unfold TopologyDatabase.neighborMap
  rw [HashMap.lookup_insertAll, show (∅ : HashMap NodeId LinkInfo).lookup v = none from rfl,
    Option.or_none]

/-- An entry has the content of the update it was made of. -/
theorem holds_of_lookup {db : TopologyDatabase} {now : Nat} {u : TopologyUpdate}
    (h : db.nodes.lookup u.originatorNode = some (entryOf now u)) : Holds db u := by
  refine ⟨entryOf now u, h, rfl, fun v => ?_⟩
  show ((TopologyDatabase.neighborMap now u.neighbors).lookup v).map _ = _
  rw [neighborMap_lookup, Option.map_map]
  rfl

/-- Updates with the same content are held together. -/
theorem Holds.congr {db : TopologyDatabase} {u v : TopologyUpdate} (h : Holds db u)
    (ho : u.originatorNode = v.originatorNode) (hs : u.sequenceNumber = v.sequenceNumber)
    (hn : u.neighbors = v.neighbors) : Holds db v := by
  unfold Holds at h ⊢
  rwa [ho, hs, hn] at h

theorem Holds.mem {db : TopologyDatabase} {u : TopologyUpdate} (h : Holds db u) :
    u.originatorNode ∈ db.nodes := by
  obtain ⟨info, hl, -⟩ := h
  exact AList.lookup_isSome.mp (by rw [hl]; rfl)

/-- Databases that hold the same update have the same links for its originator. -/
theorem Holds.links_eq {db₁ db₂ : TopologyDatabase} {u : TopologyUpdate} (h₁ : Holds db₁ u)
    (h₂ : Holds db₂ u) (v : NodeId) :
    ((linksOf db₁.nodes u.originatorNode).lookup v).map LinkInfo.cost
      = ((linksOf db₂.nodes u.originatorNode).lookup v).map LinkInfo.cost := by
  obtain ⟨info₁, hl₁, -, hlinks₁⟩ := h₁
  obtain ⟨info₂, hl₂, -, hlinks₂⟩ := h₂
  have heq := congrArg (Option.map Prod.fst) ((hlinks₁ v).trans (hlinks₂ v).symm)
  rw [Option.map_map, Option.map_map] at heq
  unfold linksOf
  rw [hl₁, hl₂]
  exact heq

/-- A run that delivers `U` ends holding the newest update of every originator,
and leaves the other entries alone. -/
theorem run_holds_newest {U : Finset TopologyUpdate} (hU : Ordered U) {db : TopologyDatabase}
    (hnone : ∀ u ∈ U, u.originatorNode ∉ db.nodes) {calls : List (Nat × TopologyUpdate)}
    (hcalls : Delivers U calls) :
    (∀ u ∈ U, Newest U u → Holds (runUpdates db calls) u) ∧
    (∀ u ∈ U, ∃ v, v.originatorNode = u.originatorNode ∧ Newest U v) ∧
    ∀ o, (∀ u ∈ U, u.originatorNode ≠ o) →
      (runUpdates db calls).nodes.lookup o = db.nodes.lookup o := by
  -- one window for each originator, so that `rank` orders its updates
  choose base len hlen hwin using hU.window
  have hrank : ∀ u ∈ U, rank base u < 2 ^ 63 := fun u hu =>
    Nat.lt_trans (hwin u.originatorNode u hu rfl) (hlen _)
  have hfold : Folded base db.nodes calls (runUpdates db calls).nodes :=
    run_folded (fun c hc => hrank c.2 (hcalls.within c hc))
      (fun c hc => AList.lookup_eq_none.mpr (hnone c.2 (hcalls.within c hc))) hcalls.fresh
  -- the entry of an originator of `U`, and that it is the newest
  have hentry : ∀ u ∈ U, ∃ now v, v.originatorNode = u.originatorNode ∧ Newest U v ∧
      (runUpdates db calls).nodes.lookup u.originatorNode = some (entryOf now v) := by
    intro u hu
    obtain ⟨c, hc, rfl⟩ := hcalls.complete u hu
    obtain ⟨now, v, ⟨hvo, ⟨d, hd, rfl⟩, hmax⟩, hl⟩ := hfold.heard c hc
    refine ⟨now, d.2, hvo, ⟨hcalls.within d hd, fun w hw hwo => ?_⟩, hl⟩
    obtain ⟨e, he, rfl⟩ := hcalls.complete w hw
    have hle := hmax e he (hwo.trans hvo)
    rcases Nat.lt_or_eq_of_le hle with hlt | heq
    · exact Or.inr ((isNewerThan_iff_rank hwo.symm (hrank _ (hcalls.within d hd))
        (hrank _ hw)).mpr hlt)
    · exact Or.inl (sequenceNumber_eq_of_rank hwo heq)
  refine ⟨fun u hu hnew => ?_, fun u hu => ?_, fun o ho => ?_⟩
  · obtain ⟨now, v, hvo, hv, hl⟩ := hentry u hu
    have hseq : v.sequenceNumber = u.sequenceNumber := by
      -- two newest updates of one originator cannot be newer than each other
      rcases hnew.2 v hv.1 hvo with heq | huv
      · exact heq
      · rcases hv.2 u hu hvo.symm with heq | hvu
        · exact heq.symm
        · have h₁ := (isNewerThan_iff_rank hvo.symm (hrank u hu) (hrank v hv.1)).mp huv
          have h₂ := (isNewerThan_iff_rank hvo (hrank v hv.1) (hrank u hu)).mp hvu
          omega
    rw [← hvo] at hl
    exact (holds_of_lookup hl).congr hvo hseq (hU.functional v hv.1 u hu hvo hseq)
  · obtain ⟨-, v, hvo, hv, -⟩ := hentry u hu
    exact ⟨v, hvo, hv⟩
  · exact hfold.unheard o fun c hc => ho c.2 (hcalls.within c hc)

/-- Two entries, or no entries, with the same links at the same costs. -/
def SameLinks : Option NodeInfo → Option NodeInfo → Prop
  | none, none => True
  | some a, some b =>
    ∀ v, (a.neighbors.lookup v).map LinkInfo.cost = (b.neighbors.lookup v).map LinkInfo.cost
  | _, _ => False

/-- **Flooded updates converge.** Two databases that received the same updates, in
any order and with any repetitions, end with the content of the newest update of
every originator; with the same local node and the same links otherwise they also
end with the same routes. Whether the local node is among the originators plays
no part. -/
theorem updates_converge (U : Finset TopologyUpdate) (hU : Ordered U)
    (db₁ db₂ : TopologyDatabase) (hnone₁ : ∀ u ∈ U, u.originatorNode ∉ db₁.nodes)
    (hnone₂ : ∀ u ∈ U, u.originatorNode ∉ db₂.nodes) (calls₁ calls₂ : List (Nat × TopologyUpdate))
    (h₁ : Delivers U calls₁) (h₂ : Delivers U calls₂) :
    (∀ u ∈ U, ∃ v, v.originatorNode = u.originatorNode ∧ Newest U v ∧
      Holds (runUpdates db₁ calls₁) v ∧ Holds (runUpdates db₂ calls₂) v) ∧
    (Reachable db₁ → Reachable db₂ → db₁.localNodeId = db₂.localNodeId →
      (∀ o, (∀ u ∈ U, u.originatorNode ≠ o) →
        SameLinks (db₁.nodes.lookup o) (db₂.nodes.lookup o)) →
      ∀ dst, (runUpdates db₁ calls₁).routes.lookup dst
        = (runUpdates db₂ calls₂).routes.lookup dst) := by
  obtain ⟨hholds₁, hnewest, hother₁⟩ := run_holds_newest hU hnone₁ h₁
  obtain ⟨hholds₂, -, hother₂⟩ := run_holds_newest hU hnone₂ h₂
  have hboth : ∀ u ∈ U, ∃ v, v.originatorNode = u.originatorNode ∧ Newest U v ∧
      Holds (runUpdates db₁ calls₁) v ∧ Holds (runUpdates db₂ calls₂) v := by
    intro u hu
    obtain ⟨v, hvo, hv⟩ := hnewest u hu
    exact ⟨v, hvo, hv, hholds₁ v hv.1 hv, hholds₂ v hv.1 hv⟩
  refine ⟨hboth, fun hr₁ hr₂ hlocal hsame dst => ?_⟩
  have hlinks : ∀ o, (o ∈ (runUpdates db₁ calls₁).nodes ↔ o ∈ (runUpdates db₂ calls₂).nodes) ∧
      ∀ v, ((linksOf (runUpdates db₁ calls₁).nodes o).lookup v).map LinkInfo.cost
        = ((linksOf (runUpdates db₂ calls₂).nodes o).lookup v).map LinkInfo.cost := by
    intro o
    by_cases ho : ∃ u ∈ U, u.originatorNode = o
    · obtain ⟨u, hu, rfl⟩ := ho
      obtain ⟨v, hvo, -, hv₁, hv₂⟩ := hboth u hu
      rw [← hvo]
      exact ⟨iff_of_true hv₁.mem hv₂.mem, hv₁.links_eq hv₂⟩
    · have hnot : ∀ u ∈ U, u.originatorNode ≠ o := fun u hu he => ho ⟨u, hu, he⟩
      have hs := hsame o hnot
      rw [← hother₁ o hnot, ← hother₂ o hnot] at hs
      rw [← AList.lookup_isSome, ← AList.lookup_isSome]
      unfold linksOf
      unfold SameLinks at hs
      split at hs
      next e₁ e₂ =>
        rw [e₁, e₂]
        exact ⟨Iff.rfl, fun _ => rfl⟩
      next e₁ e₂ =>
        rw [e₁, e₂]
        exact ⟨iff_of_true rfl rfl, hs⟩
      next => exact hs.elim
  -- the routes are those of the nodes, and the nodes have the same links
  have hs₁ := settled_run hr₁.settled calls₁
  have hs₂ := settled_run hr₂.settled calls₂
  rw [← hs₁, ← hs₂]
  refine routes_congr ?_ (fun o => (hlinks o).1) (fun o => (hlinks o).2) dst
  rw [run_localNodeId, run_localNodeId, hlocal]

/-- Node 2 advertises a link to node 3, and once its sequence number has wrapped
a cheaper one. -/
def wrappedUpdate (sequenceNumber : UInt64) (cost : UInt32) : TopologyUpdate :=
  { originatorNode := 2, sequenceNumber, neighbors := [⟨3, cost, none⟩], ttl := 8, timestamp := 0 }

/-- Both orders leave a fresh database with the update made after the wrap. -/
theorem updates_converge_wrapped :
    let old := wrappedUpdate 0xFFFFFFFFFFFFFFFF 9
    let new := wrappedUpdate 0 4
    (∀ u ∈ ({old, new} : Finset TopologyUpdate), ∃ v, v.originatorNode = u.originatorNode ∧
      Newest {old, new} v ∧
      Holds (runUpdates (TopologyDatabase.new 1) [(0, old), (1, new), (2, old)]) v ∧
      Holds (runUpdates (TopologyDatabase.new 1) [(5, new), (6, old)]) v) ∧
    ∀ dst, (runUpdates (TopologyDatabase.new 1) [(0, old), (1, new), (2, old)]).routes.lookup dst
      = (runUpdates (TopologyDatabase.new 1) [(5, new), (6, old)]).routes.lookup dst := by
  intro old new
  have hU : Ordered {old, new} :=
    ⟨by decide, fun o => ⟨0xFFFFFFFFFFFFFFFF, 2, by decide, fun u hu _ =>
      (show ∀ u ∈ ({old, new} : Finset TopologyUpdate),
        (u.sequenceNumber - 0xFFFFFFFFFFFFFFFF).toNat < 2 by decide) u hu⟩⟩
  have hconv := updates_converge {old, new} hU (TopologyDatabase.new 1) (TopologyDatabase.new 1)
    (by decide) (by decide) [(0, old), (1, new), (2, old)] [(5, new), (6, old)]
    ⟨by decide, by decide, by decide⟩ ⟨by decide, by decide, by decide⟩
  exact ⟨hconv.1, hconv.2 (Reachable.new 1) (Reachable.new 1) rfl fun _ _ => trivial⟩

end MeshCore.Topology
