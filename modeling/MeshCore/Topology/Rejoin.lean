import MeshCore.Topology.Duplicates

/-!
# A node that comes back

A restarted node has a new database, whose sequence numbers begin at 1 again. Its
peers still hold the entry from before, and nothing tells them of the restart. So
the first advertisement is news to a peer only if 1 is newer than the number that
peer remembers, which is the case for 0 and for numbers beyond 2^63 + 1. From then
on every number is one more than the last, and the others are news as well
(`restarted_heard_iff`).

Mirroring notes:
- What the first life did, and how the peer came to its entry, does not matter: the
  peer is any database that has one. Between two arrivals it may issue
  advertisements of its own, hear of other nodes, clean up, and get further copies
  of what the node issued, before or after the restart, as long as it accepts none.
-/

namespace MeshCore.Topology

open MeshCore.Lib

/-- The advertisements that `update_local_neighbors` returns in a run of calls. -/
def issuedBy (db : TopologyDatabase) : List DbCall → List TopologyUpdate
  | [] => []
  | .updateLocalNeighbors now neighbors :: calls =>
    let (update, db) := db.updateLocalNeighbors now neighbors
    update :: issuedBy db calls
  | call :: calls => issuedBy (call.apply db) calls

/-- An update arrives at a peer, which then makes some other calls. -/
structure Arrival where
  now : Nat
  update : TopologyUpdate
  later : List DbCall

/-- Every arriving update is accepted. -/
def AcceptsAll (peer : TopologyDatabase) : List Arrival → Prop
  | [] => True
  | a :: arrivals =>
    (peer.processTopologyUpdate a.now a.update).1 = true ∧
      AcceptsAll (a.later.foldl DbCall.apply (peer.processTopologyUpdate a.now a.update).2) arrivals

instance AcceptsAll.decidable (peer : TopologyDatabase) :
    (arrivals : List Arrival) → Decidable (AcceptsAll peer arrivals)
  | [] => isTrue trivial
  | a :: arrivals =>
    have := AcceptsAll.decidable
      (a.later.foldl DbCall.apply (peer.processTopologyUpdate a.now a.update).2) arrivals
    inferInstanceAs (Decidable (_ ∧ _))

/-- The call is no received update about this node that is accepted. -/
def DbCall.SparesEntry (node : NodeId) (db : TopologyDatabase) : DbCall → Prop
  | .processTopologyUpdate now update =>
    update.originatorNode = node → (db.processTopologyUpdate now update).1 = false
  | _ => True

/-- Between the arrivals nothing else about the node is accepted. -/
def Undisturbed (node : NodeId) (peer : TopologyDatabase) : List Arrival → Prop
  | [] => True
  | a :: arrivals =>
    let reached := (peer.processTopologyUpdate a.now a.update).2
    Along DbCall.apply (DbCall.SparesEntry node) reached a.later ∧
      Undisturbed node (a.later.foldl DbCall.apply reached) arrivals

/-- Updates of one node with consecutive numbers. -/
def Numbered (node : NodeId) : UInt64 → List TopologyUpdate → Prop
  | _, [] => True
  | seq, u :: us => u.originatorNode = node ∧ u.sequenceNumber = seq ∧ Numbered node (seq + 1) us

/-- The database has no entry of this node, or one with this number. -/
def HoldsOnly (db : TopologyDatabase) (node : NodeId) (seq : UInt64) : Prop :=
  ∀ entry, db.nodes.lookup node = some entry → entry.sequenceNumber = seq

/-! ## The restarted node -/

theorem apply_localSequence (db : TopologyDatabase) {call : DbCall}
    (h : ∀ now neighbors, call ≠ .updateLocalNeighbors now neighbors) :
    (call.apply db).localSequence = db.localSequence := by
  cases call with
  | updateLocalNeighbors now neighbors => exact absurd rfl (h now neighbors)
  | processTopologyUpdate now update =>
    obtain ⟨nodes, routes, hframe⟩ := process_frame db now update
    rw [show DbCall.apply db (.processTopologyUpdate now update) = _ from hframe]
  | cleanupOldEntries now =>
    obtain ⟨nodes, routes, hframe⟩ := cleanup_frame db now
    rw [show DbCall.apply db (.cleanupOldEntries now) = _ from hframe]

/-- A database numbers its advertisements one after the other. -/
theorem numbered_issuedBy (db : TopologyDatabase) (calls : List DbCall) :
    Numbered db.localNodeId db.localSequence (issuedBy db calls) := by
  induction calls generalizing db with
  | nil => trivial
  | cons call calls ih =>
    cases call with
    | updateLocalNeighbors now neighbors =>
      exact ⟨rfl, rfl, ih (db.updateLocalNeighbors now neighbors).2⟩
    | processTopologyUpdate now update =>
      have hrest := ih (DbCall.apply db (.processTopologyUpdate now update))
      rw [apply_localNodeId, apply_localSequence db (by simp)] at hrest
      exact hrest
    | cleanupOldEntries now =>
      have hrest := ih (DbCall.apply db (.cleanupOldEntries now))
      rw [apply_localNodeId, apply_localSequence db (by simp)] at hrest
      exact hrest

/-! ## The peer -/

/-- Cleaning up makes no new entry. -/
theorem lookup_of_cleanup {db : TopologyDatabase} {now : Nat} {node : NodeId} {entry : NodeInfo}
    (h : (db.cleanupOldEntries now).nodes.lookup node = some entry) :
    db.nodes.lookup node = some entry := by
  unfold TopologyDatabase.cleanupOldEntries at h
  dsimp only at h
  split at h
  · exact h
  · have hlookup := (HashMap.lookup_foldl_erase_ite ..).symm.trans h
    exact (Option.ite_none_left_eq_some.mp hlookup).2

/-- What the peer does between two arrivals may lose its entry, but puts no other
in its place. -/
theorem HoldsOnly.later {db : TopologyDatabase} {node : NodeId} {seq : UInt64}
    (hlocal : db.localNodeId ≠ node) (h : HoldsOnly db node seq) {calls : List DbCall}
    (hcalls : Along DbCall.apply (DbCall.SparesEntry node) db calls) :
    (calls.foldl DbCall.apply db).localNodeId ≠ node ∧
      HoldsOnly (calls.foldl DbCall.apply db) node seq := by
  refine Along.inv (I := fun db => db.localNodeId ≠ node ∧ HoldsOnly db node seq)
    ?_ ⟨hlocal, h⟩ hcalls
  rintro db call ⟨hlocal, h⟩ hspares
  refine ⟨by rw [apply_localNodeId]; exact hlocal, fun entry hentry => ?_⟩
  cases call with
  | updateLocalNeighbors now neighbors =>
    obtain ⟨u, db', heq, -, -, -, hnodes⟩ := updateLocalNeighbors_spec db now neighbors
    have happly : DbCall.apply db (.updateLocalNeighbors now neighbors) = db' :=
      congrArg Prod.snd heq
    rw [happly, hnodes, AList.lookup_insert_ne (Ne.symm hlocal)] at hentry
    exact h entry hentry
  | cleanupOldEntries now => exact h entry (lookup_of_cleanup hentry)
  | processTopologyUpdate now u =>
    have hanswer : (handleReceivedUpdate db now u).1 = (db.processTopologyUpdate now u).1 := rfl
    have happly : DbCall.apply db (.processTopologyUpdate now u)
        = (handleReceivedUpdate db now u).2.1 := rfl
    rw [happly] at hentry
    rcases handle_cases db now u with heq | ⟨-, db', -, -, hnodes, heq⟩
    · rw [heq] at hentry
      exact h entry hentry
    · have hother : u.originatorNode ≠ node := by
        intro hnode
        rw [heq, hspares hnode] at hanswer
        exact absurd hanswer (by simp)
      rw [heq] at hentry
      dsimp only at hentry
      rw [hnodes, AList.lookup_insert_ne (Ne.symm hother)] at hentry
      exact h entry hentry

/-- A fresh update is accepted exactly when it is newer than the entry there is, and
then it is the entry. -/
theorem accepts_iff (db : TopologyDatabase) {now : Nat} {u : TopologyUpdate}
    (hfresh : now - u.timestamp ≤ maxTopologyAgeSecs) :
    ((db.processTopologyUpdate now u).1 = true ↔
      ∀ entry, db.nodes.lookup u.originatorNode = some entry →
        u.isNewerThan entry.sequenceNumber = true) ∧
    ((db.processTopologyUpdate now u).1 = true →
      HoldsOnly (db.processTopologyUpdate now u).2 u.originatorNode u.sequenceNumber) := by
  rcases process_fresh db hfresh with ⟨entry, hl, hold, heq⟩ | ⟨hnew, heq⟩
  · rw [heq]
    refine ⟨⟨fun h => absurd h (by simp), fun h => ?_⟩, fun h => absurd h (by simp)⟩
    exact absurd (hold.symm.trans (h entry hl)) (by simp)
  · rw [heq]
    refine ⟨⟨fun _ => hnew, fun _ => rfl⟩, fun _ entry hentry => ?_⟩
    have hlookup : AList.lookup u.originatorNode
        (db.nodes.insert u.originatorNode (entryOf now u)) = some entry := hentry
    rw [AList.lookup_insert] at hlookup
    rw [← Option.some.inj hlookup]
    rfl

/-- The next number is newer. -/
theorem isNewerThan_succ {u : TopologyUpdate} {seq : UInt64} (h : u.sequenceNumber = seq + 1) :
    u.isNewerThan seq = true := by
  unfold TopologyUpdate.isNewerThan
  rw [decide_eq_true_iff, toInt64_pos_iff, h, show seq + 1 - seq = 1 by
    rw [UInt64.add_comm, UInt64.add_sub_cancel]]
  decide

/-- When the first number of a new database is newer. -/
theorem isNewerThan_one_iff {u : TopologyUpdate} (h : u.sequenceNumber = 1) (seq : UInt64) :
    u.isNewerThan seq = true ↔ seq = 0 ∨ 2 ^ 63 + 1 < seq.toNat := by
  unfold TopologyUpdate.isNewerThan
  rw [decide_eq_true_iff, toInt64_pos_iff, h, ← UInt64.toNat_inj, UInt64.toNat_sub]
  have hlt := seq.toNat_lt
  have hone : (1 : UInt64).toNat = 1 := rfl
  have hzero : (0 : UInt64).toNat = 0 := rfl
  rw [hone, hzero]
  omega

/-- Once one update was accepted, its successors are. -/
theorem acceptsAll_of_holdsOnly {peer : TopologyDatabase} {node : NodeId} {seq : UInt64}
    (hlocal : peer.localNodeId ≠ node) (h : HoldsOnly peer node seq) {arrivals : List Arrival}
    (hnum : Numbered node (seq + 1) (arrivals.map Arrival.update))
    (hfresh : ∀ a ∈ arrivals, a.now - a.update.timestamp ≤ maxTopologyAgeSecs)
    (hlater : Undisturbed node peer arrivals) : AcceptsAll peer arrivals := by
  induction arrivals generalizing peer seq with
  | nil => trivial
  | cons a arrivals ih =>
    obtain ⟨horig, hseq, hnum⟩ := hnum
    obtain ⟨hiff, hholds⟩ := accepts_iff peer (hfresh a (List.mem_cons_self ..))
    have haccept : (peer.processTopologyUpdate a.now a.update).1 = true := by
      refine hiff.mpr fun entry hentry => ?_
      rw [horig] at hentry
      exact h entry hentry ▸ isNewerThan_succ hseq
    have hheld := hholds haccept
    rw [horig, hseq] at hheld
    have hid : (peer.processTopologyUpdate a.now a.update).2.localNodeId ≠ node :=
      (apply_localNodeId peer (.processTopologyUpdate a.now a.update)).symm ▸ hlocal
    obtain ⟨hlocal', hheld'⟩ := hheld.later hid hlater.1
    exact ⟨haccept, ih hlocal' hheld' hnum
      (fun b hb => hfresh b (List.mem_cons_of_mem _ hb)) hlater.2⟩

/-- **When a restarted node is heard.** A peer that still holds an entry from before
accepts everything the restarted node issues, delivered in order and in time, if
and only if it issues nothing or its first number, 1, is newer than the one in that
entry. -/
theorem restarted_heard_iff (node : NodeId) (calls : List DbCall) (peer : TopologyDatabase)
    (hpeer : peer.localNodeId ≠ node) (entry : NodeInfo)
    (hentry : peer.nodes.lookup node = some entry) (arrivals : List Arrival)
    (hissued : arrivals.map Arrival.update = issuedBy (.new node) calls)
    (hfresh : ∀ a ∈ arrivals, a.now - a.update.timestamp ≤ maxTopologyAgeSecs)
    (hlater : Undisturbed node peer arrivals) :
    AcceptsAll peer arrivals ↔
      issuedBy (.new node) calls = [] ∨ entry.sequenceNumber = 0 ∨
        2 ^ 63 + 1 < entry.sequenceNumber.toNat := by
  have hnum := numbered_issuedBy (.new node) calls
  rw [← hissued] at hnum ⊢
  cases arrivals with
  | nil => exact ⟨fun _ => .inl rfl, fun _ => trivial⟩
  | cons a arrivals =>
    obtain ⟨horig, hseq, hnum⟩ := hnum
    obtain ⟨hiff, hholds⟩ := accepts_iff peer (hfresh a (List.mem_cons_self ..))
    have hfirst : (peer.processTopologyUpdate a.now a.update).1 = true ↔
        entry.sequenceNumber = 0 ∨ 2 ^ 63 + 1 < entry.sequenceNumber.toNat := by
      rw [hiff, horig, ← isNewerThan_one_iff hseq]
      constructor
      · exact fun h => h entry hentry
      · intro h existing hexisting
        rw [← Option.some.inj (hentry.symm.trans hexisting)]
        exact h
    constructor
    · exact fun h => .inr (hfirst.mp h.1)
    · rintro (hnone | hnew)
      · exact absurd hnone (List.cons_ne_nil _ _)
      · have haccept := hfirst.mpr hnew
        have hheld := hholds haccept
        rw [horig, hseq] at hheld
        have hid : (peer.processTopologyUpdate a.now a.update).2.localNodeId ≠ node :=
          (apply_localNodeId peer (.processTopologyUpdate a.now a.update)).symm ▸ hpeer
        obtain ⟨hlocal', hheld'⟩ := hheld.later hid hlater.1
        exact ⟨haccept, acceptsAll_of_holdsOnly hlocal' hheld' hnum
          (fun b hb => hfresh b (List.mem_cons_of_mem _ hb)) hlater.2⟩

/-- Node 2 has heard two advertisements of node 1. -/
def heardTwice : TopologyDatabase :=
  runUpdates (.new 2) ((issuedBy (.new 1)
    [.updateLocalNeighbors 100 [⟨2, 10, none⟩], .updateLocalNeighbors 101 []]).map (101, ·))

/-- What node 1 issues first after a restart. -/
def afterRestart : TopologyUpdate :=
  { originatorNode := 1, sequenceNumber := 1, neighbors := [⟨2, 10, none⟩], ttl := 8,
    timestamp := 110 }

theorem restarted_heard_iff_refused : ¬ AcceptsAll heardTwice [⟨110, afterRestart, []⟩] := by
  have hheld : (heardTwice.nodes.lookup 1).map NodeInfo.sequenceNumber = some 2 := by
    decide +kernel
  obtain ⟨entry, hentry, hseq⟩ := Option.map_eq_some_iff.mp hheld
  have hiff := restarted_heard_iff 1 [.updateLocalNeighbors 110 [⟨2, 10, none⟩]] heardTwice
    (by decide +kernel) entry hentry [⟨110, afterRestart, []⟩] (by decide +kernel)
    (by simp [afterRestart]) ⟨trivial, trivial⟩
  rw [hiff, hseq]
  decide +kernel

theorem restarted_not_heard :
    issuedBy (.new 1) [.updateLocalNeighbors 110 [⟨2, 10, none⟩]] = [afterRestart] ∧
      (heardTwice.nodes.lookup 1).isSome ∧ ¬ AcceptsAll heardTwice [⟨110, afterRestart, []⟩] := by
  decide +kernel

end MeshCore.Topology
