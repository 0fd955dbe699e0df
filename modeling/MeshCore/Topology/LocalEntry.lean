import MeshCore.Topology.Sync
import MeshCore.Lib.Runs

/-!
# The local entry of a database

A node is the authority on its own links: `update_local_neighbors` installs the
entry of the local node, and `cleanup_old_entries` never ages it out. But
`process_topology_update` compares sequence numbers and nothing else, so an
update that names the local node as its originator replaces the local entry
whenever it is newer, and creates one where there was none. After a restart the
local sequence starts at 1 again, and the advertisement a neighbour still holds
from before is such an update.

`Tracked` runs a database beside the entry its latest `update_local_neighbors`
call installed. The two agree in every state of a run exactly when no received
update about the local node gets past the age check and the sequence check
(`localEntry_latest_iff`).
-/

namespace MeshCore.Topology

open MeshCore.Lib

/-- The calls that change a database. -/
inductive DbCall where
  | updateLocalNeighbors (now : Nat) (neighbors : List NeighborInfo)
  | processTopologyUpdate (now : Nat) (update : TopologyUpdate)
  | cleanupOldEntries (now : Nat)

/-- The database after a call. -/
def DbCall.apply (db : TopologyDatabase) : DbCall → TopologyDatabase
  | .updateLocalNeighbors now neighbors => (db.updateLocalNeighbors now neighbors).2
  | .processTopologyUpdate now update => (db.processTopologyUpdate now update).2
  | .cleanupOldEntries now => db.cleanupOldEntries now

/-- A database, and the entry the latest `update_local_neighbors` call
installed. -/
structure Tracked where
  db : TopologyDatabase
  latest : Option NodeInfo
  deriving DecidableEq

/-- The entry `update_local_neighbors` installs: the one its advertisement
describes. -/
def localEntry (db : TopologyDatabase) (now : Nat) (neighbors : List NeighborInfo) : NodeInfo :=
  entryOf now (db.updateLocalNeighbors now neighbors).1

/-- One call. -/
def Tracked.step (s : Tracked) (call : DbCall) : Tracked :=
  { db := call.apply s.db
    latest := match call with
      | .updateLocalNeighbors now neighbors => some (localEntry s.db now neighbors)
      | _ => s.latest }

/-- A new database, with no call made. -/
def Tracked.new (localNodeId : NodeId) : Tracked :=
  { db := TopologyDatabase.new localNodeId, latest := none }

/-- The local entry is the latest one installed, and absent when there was none. -/
def Tracked.Authoritative (s : Tracked) : Prop :=
  s.db.nodes.lookup s.db.localNodeId = s.latest

instance (s : Tracked) : Decidable s.Authoritative :=
  inferInstanceAs (Decidable (_ = _))

/-- The call is no received update about the local node, or one that is over
five minutes old or not newer than the local entry there is. -/
def DbCall.SparesLocal (s : Tracked) : DbCall → Prop
  | .processTopologyUpdate now update =>
    update.originatorNode = s.db.localNodeId → maxTopologyAgeSecs < now - update.timestamp ∨
      ∃ existing, s.db.nodes.lookup s.db.localNodeId = some existing ∧
        update.isNewerThan existing.sequenceNumber = false
  | _ => True

/-! ## One call -/

theorem cleanup_lookup_local (db : TopologyDatabase) (now : Nat) :
    (db.cleanupOldEntries now).nodes.lookup db.localNodeId = db.nodes.lookup db.localNodeId := by
  unfold TopologyDatabase.cleanupOldEntries
  dsimp only
  split
  · rfl
  · -- the local node is never among the entries to remove
    refine HashMap.lookup_foldl_erase _ ?_ _
    intro hmem
    obtain ⟨e, he, hid⟩ := List.mem_map.mp hmem
    have hne := (List.mem_filter.mp he).2
    rw [decide_eq_true_iff] at hne
    exact hne.1 hid

theorem apply_localNodeId (db : TopologyDatabase) (call : DbCall) :
    (call.apply db).localNodeId = db.localNodeId := by
  cases call with
  | updateLocalNeighbors now neighbors => rfl
  | processTopologyUpdate now update =>
    obtain ⟨nodes, routes, hframe⟩ := process_frame db now update
    rw [show DbCall.apply db (.processTopologyUpdate now update) = _ from hframe]
  | cleanupOldEntries now =>
    obtain ⟨nodes, routes, hframe⟩ := cleanup_frame db now
    rw [show DbCall.apply db (.cleanupOldEntries now) = _ from hframe]

/-- The entry of an update that is newer than the local entry is not the one
installed. -/
theorem latest_ne_of_newer {s : Tracked} {now : Nat} {u : TopologyUpdate}
    (h : s.Authoritative)
    (hnewer : ∀ existing, s.db.nodes.lookup s.db.localNodeId = some existing →
      u.isNewerThan existing.sequenceNumber = true) :
    s.latest ≠ some (entryOf now u) := by
  intro hlatest
  have hself := hnewer (entryOf now u) (h.trans hlatest)
  rw [entryOf_sequenceNumber, not_isNewerThan_self] at hself
  exact absurd hself (by simp)

/-- A call keeps the local entry authoritative exactly when it spares it. -/
theorem step_authoritative_iff (s : Tracked) (call : DbCall) (h : s.Authoritative) :
    (s.step call).Authoritative ↔ call.SparesLocal s := by
  unfold Tracked.Authoritative
  show ((call.apply s.db).nodes.lookup (call.apply s.db).localNodeId = _) ↔ _
  rw [apply_localNodeId]
  cases call with
  | updateLocalNeighbors now neighbors =>
    refine ⟨fun _ => trivial, fun _ => ?_⟩
    exact AList.lookup_insert _
  | cleanupOldEntries now =>
    refine ⟨fun _ => trivial, fun _ => ?_⟩
    exact (cleanup_lookup_local s.db now).trans h
  | processTopologyUpdate now u =>
    show (s.db.processTopologyUpdate now u).2.nodes.lookup s.db.localNodeId = s.latest ↔ _
    by_cases hold : maxTopologyAgeSecs < now - u.timestamp
    · rw [process_old s.db hold]
      exact ⟨fun _ _ => Or.inl hold, fun _ => h⟩
    · rcases process_fresh s.db (Nat.not_lt.mp hold) with
        ⟨existing, hl, hn, heq⟩ | ⟨hnewer, heq⟩
      · rw [heq]
        refine ⟨fun _ ho => Or.inr ⟨existing, ?_, hn⟩, fun _ => h⟩
        rw [← ho]
        exact hl
      · rw [heq]
        show (s.db.nodes.insert u.originatorNode (entryOf now u)).lookup _ = _ ↔ _
        by_cases ho : u.originatorNode = s.db.localNodeId
        · -- the update is about the local node, and replaces its entry
          rw [ho] at hnewer ⊢
          rw [AList.lookup_insert]
          constructor
          · intro hlatest
            exact absurd hlatest.symm (latest_ne_of_newer h hnewer)
          · intro hspares
            rcases hspares ho with hold' | ⟨existing, hl, hn⟩
            · exact absurd hold' hold
            · rw [hnewer existing hl] at hn
              exact absurd hn (by simp)
        · rw [AList.lookup_insert_ne (fun heq => ho heq.symm)]
          exact ⟨fun _ ho' => absurd ho' ho, fun _ => h⟩

/-! ## Runs -/

/-- **When the local entry is authoritative.** In every state of a run from a
new database the entry of the local node is the one the latest
`update_local_neighbors` call installed, and absent before the first, exactly
when every received update about the local node is over five minutes old or
meets a local entry it is not newer than. -/
theorem localEntry_latest_iff (localNodeId : NodeId) (calls : List DbCall) :
    (∀ done, done <+: calls → (done.foldl Tracked.step (Tracked.new localNodeId)).Authoritative) ↔
      Along Tracked.step DbCall.SparesLocal (Tracked.new localNodeId) calls :=
  every_state_iff_along step_authoritative_iff rfl

/-- Node 1 restarts, installs its local entry with sequence number 1, and hears
from a neighbour its own advertisement from before, with sequence number 5. -/
theorem localEntry_replaced :
    ¬ ∀ (localNodeId : NodeId) (calls : List DbCall),
      (calls.foldl Tracked.step (Tracked.new localNodeId)).Authoritative := by
  intro h
  have hrun := h 1 [.updateLocalNeighbors 100 [⟨2, 100, none⟩],
    .processTopologyUpdate 101
      { originatorNode := 1, sequenceNumber := 5, neighbors := [⟨3, 100, none⟩], ttl := 7,
        timestamp := 100 }]
  revert hrun
  decide +kernel

end MeshCore.Topology
