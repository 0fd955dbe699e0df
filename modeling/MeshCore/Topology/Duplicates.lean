import MeshCore.Topology.Flooding

/-!
# A flood does not repeat

Every copy a node sends may come back to it, along any cycle of sessions and from
the neighbour it went to. All that stops a flood is the acceptance test of each
node: an update is accepted only if its sequence number is newer than that of the
entry it meets.

`Gossip` runs the received-update handler of `mesh-bin/src/main.rs` on any number
of nodes. What was sent once stays in `copies` and may be delivered to any node,
at any time and any number of times. As long as the sequence numbers of each
originator stay in one window of fewer than 2^63 values, a node's entry for an
originator moves up in the window with every update it accepts (`Once.receive`),
and the originator's own entry is at the top (`Once.issue`). Hence no update is
accepted twice by a node, nor at all by its originator (`flood_once`).

Mirroring notes:
- The channels and sessions in between are not modelled: they can only choose
  which copies are delivered where and when, and here all choices are open.
-/

namespace MeshCore.Topology

open MeshCore.Lib

/-- The handler of a received update at one node: whether it was accepted, the
database after it, and the copy that is broadcast. -/
def handleReceivedUpdate (db : TopologyDatabase) (now : Nat) (update : TopologyUpdate) :
    Bool × TopologyDatabase × Option TopologyUpdate :=
  let (accepted, db) := db.processTopologyUpdate now update
  (accepted, db,
    if accepted ∧ update.ttl > 1 then some { update with ttl := update.ttl - 1 } else none)

/-- A node has accepted an update. -/
structure Acceptance where
  node : NodeId
  originator : NodeId
  sequenceNumber : UInt64
  deriving DecidableEq

/-- The acceptance of an update. -/
def Acceptance.of (node : NodeId) (update : TopologyUpdate) : Acceptance :=
  { node, originator := update.originatorNode, sequenceNumber := update.sequenceNumber }

/-- All nodes, what they have sent so far, and what they have accepted and
broadcast again. -/
structure Gossip where
  dbs : NodeId → TopologyDatabase
  copies : List TopologyUpdate
  accepted : List Acceptance
  rebroadcast : List (NodeId × TopologyUpdate)

/-- A node issues an advertisement, or some copy arrives somewhere. -/
inductive FloodEvent where
  | issue (node : NodeId) (now : Nat) (neighbors : List NeighborInfo)
  | receive (node : NodeId) (now copy : Nat)

namespace Gossip

/-- New nodes that have sent nothing. -/
def new : Gossip := { dbs := .new, copies := [], accepted := [], rebroadcast := [] }

/-- `update_local_neighbors`, and the broadcast of what it returns. -/
def issue (g : Gossip) (node : NodeId) (now : Nat) (neighbors : List NeighborInfo) : Gossip :=
  let (update, db) := (g.dbs node).updateLocalNeighbors now neighbors
  { g with dbs := Function.update g.dbs node db, copies := g.copies ++ [update] }

/-- A copy arrives at a node. -/
def receive (g : Gossip) (node : NodeId) (now : Nat) (update : TopologyUpdate) : Gossip :=
  let (accepted, db, forwarded) := handleReceivedUpdate (g.dbs node) now update
  { dbs := Function.update g.dbs node db
    copies := g.copies ++ forwarded.toList
    accepted := if accepted then g.accepted ++ [.of node update] else g.accepted
    rebroadcast := g.rebroadcast ++ forwarded.toList.map (node, ·) }

/-- One event. -/
def step (g : Gossip) : FloodEvent → Gossip
  | .issue node now neighbors => g.issue node now neighbors
  | .receive node now copy =>
    match g.copies[copy]? with
    | some update => g.receive node now update
    | none => g

/-- A run. -/
def run (g : Gossip) (events : List FloodEvent) : Gossip := events.foldl step g

end Gossip

/-- The sequence numbers of each originator lie in a window of fewer than 2^63
consecutive values modulo 2^64. -/
def InWindow (copies : List TopologyUpdate) : Prop :=
  ∀ o, ∃ (base : UInt64) (len : Nat), len < 2 ^ 63 ∧
    ∀ u ∈ copies, u.originatorNode = o → (u.sequenceNumber - base).toNat < len

/-! ## One step -/

/-- The acceptance test, and nothing else, decides what the handler does. -/
theorem handle_cases (db : TopologyDatabase) (now : Nat) (u : TopologyUpdate) :
    handleReceivedUpdate db now u = (false, db, none) ∨
    ((∀ existing, db.nodes.lookup u.originatorNode = some existing →
        u.isNewerThan existing.sequenceNumber = true) ∧
      ∃ db', db'.localNodeId = db.localNodeId ∧ db'.localSequence = db.localSequence ∧
        db'.nodes = db.nodes.insert u.originatorNode (entryOf now u) ∧
        handleReceivedUpdate db now u
          = (true, db', if u.ttl > 1 then some { u with ttl := u.ttl - 1 } else none)) := by
  by_cases hage : now - u.timestamp ≤ maxTopologyAgeSecs
  · rcases process_fresh db hage with ⟨_, _, _, heq⟩ | ⟨hnew, heq⟩
    · refine .inl ?_
      unfold handleReceivedUpdate
      rw [heq]
      simp
    · refine .inr ⟨hnew, TopologyDatabase.computeRoutes
        { db with nodes := db.nodes.insert u.originatorNode (entryOf now u) }, rfl, rfl, rfl, ?_⟩
      unfold handleReceivedUpdate
      rw [heq]
      simp
  · refine .inl ?_
    unfold handleReceivedUpdate
    rw [process_old db (Nat.lt_of_not_le hage)]
    simp

/-- What an arriving copy can do: nothing, or, if it is newer than what the node
has, replace the entry, with the same update going on. -/
theorem Gossip.receive_cases (g : Gossip) (node : NodeId) (now : Nat) (u : TopologyUpdate) :
    g.receive node now u = g ∨
    ((∀ existing, (g.dbs node).nodes.lookup u.originatorNode = some existing →
        u.isNewerThan existing.sequenceNumber = true) ∧
      ∃ db forwarded, db.localNodeId = (g.dbs node).localNodeId ∧
        db.localSequence = (g.dbs node).localSequence ∧
        db.nodes = (g.dbs node).nodes.insert u.originatorNode (entryOf now u) ∧
        (forwarded = [] ∨ forwarded = [{ u with ttl := u.ttl - 1 }]) ∧
        g.receive node now u
          = { dbs := Function.update g.dbs node db, copies := g.copies ++ forwarded
              accepted := g.accepted ++ [.of node u]
              rebroadcast := g.rebroadcast ++ forwarded.map (node, ·) }) := by
  unfold Gossip.receive
  rcases handle_cases (g.dbs node) now u with hdrop | ⟨hnew, db, hid, hseq, hnodes, haccept⟩
  · refine .inl ?_
    rw [hdrop]
    simp
  · refine .inr ⟨hnew, db, (if u.ttl > 1 then some { u with ttl := u.ttl - 1 } else none).toList,
      hid, hseq, hnodes, ?_, ?_⟩
    · split
      · exact .inr rfl
      · exact .inl rfl
    · rw [haccept]
      simp

/-- What holds of the nodes while sequence numbers stay in their windows: every
entry is of an update that was sent; an originator's own entry is above all it has
sent, and its next number is the one behind; and an entry is above all that was
accepted for it. -/
structure Once (base : NodeId → UInt64) (g : Gossip) : Prop where
  localNodeId : ∀ v, (g.dbs v).localNodeId = v
  sent : ∀ v o entry, (g.dbs v).nodes.lookup o = some entry →
    ∃ u ∈ g.copies, u.originatorNode = o ∧ u.sequenceNumber = entry.sequenceNumber
  next : ∀ v entry, (g.dbs v).nodes.lookup v = some entry →
    (g.dbs v).localSequence = entry.sequenceNumber + 1
  own : ∀ u ∈ g.copies, ∃ entry,
    (g.dbs u.originatorNode).nodes.lookup u.originatorNode = some entry ∧
      rank base u ≤ (entry.sequenceNumber - base u.originatorNode).toNat
  above : ∀ a ∈ g.accepted, a.node ≠ a.originator ∧ ∃ entry,
    (g.dbs a.node).nodes.lookup a.originator = some entry ∧
      (a.sequenceNumber - base a.originator).toNat
        ≤ (entry.sequenceNumber - base a.originator).toNat
  nodup : g.accepted.Nodup
  rebroadcast : (g.rebroadcast.map fun r => Acceptance.of r.1 r.2).Sublist g.accepted

theorem once_new (base : NodeId → UInt64) : Once base .new where
  localNodeId := fun _ => rfl
  sent := fun _ _ _ h => absurd h (by simp [Gossip.new, TopologyDatabase.new])
  next := fun _ _ h => absurd h (by simp [Gossip.new, TopologyDatabase.new])
  own := fun _ h => absurd h (List.not_mem_nil)
  above := fun _ h => absurd h (List.not_mem_nil)
  nodup := List.nodup_nil
  rebroadcast := List.Sublist.refl _

variable {base : NodeId → UInt64} {g : Gossip}

theorem rank_add_one {s b : UInt64} (h : (s - b).toNat < 2 ^ 63) :
    (s + 1 - b).toNat = (s - b).toNat + 1 := by
  have hs := s.toNat_lt
  have hb := b.toNat_lt
  have hone : (1 : UInt64).toNat = 1 := rfl
  simp only [UInt64.toNat_sub, UInt64.toNat_add, hone] at *
  omega

/-- An entry of some node, after the node map of one was written in one place. -/
theorem lookup_update_dbs {dbs : NodeId → TopologyDatabase} {node v o key : NodeId}
    {db : TopologyDatabase} {entry : NodeInfo}
    (hdb : db.nodes = (dbs node).nodes.insert key entry) :
    ((Function.update dbs node db) v).nodes.lookup o
      = if v = node ∧ o = key then some entry else (dbs v).nodes.lookup o := by
  by_cases hv : v = node
  · subst hv
    rw [Function.update_self, hdb, HashMap.lookup_insert_ite]
    by_cases ho : o = key
    · rw [if_pos ho, if_pos ⟨rfl, ho⟩]
    · rw [if_neg ho, if_neg (fun h => ho h.2)]
  · rw [Function.update_of_ne hv, if_neg (fun h => hv h.1)]

/-- Writing a node's database keeps it that node's. -/
theorem localNodeId_update {dbs : NodeId → TopologyDatabase} (h : ∀ v, (dbs v).localNodeId = v)
    {node : NodeId} {db : TopologyDatabase} (hid : db.localNodeId = (dbs node).localNodeId)
    (v : NodeId) : (Function.update dbs node db v).localNodeId = v := by
  by_cases hv : v = node
  · subst hv
    rw [Function.update_self, hid]
    exact h v
  · rw [Function.update_of_ne hv]
    exact h v

/-- What `update_local_neighbors` returns and installs. -/
theorem updateLocalNeighbors_spec (db : TopologyDatabase) (now : Nat)
    (neighbors : List NeighborInfo) :
    ∃ u db', db.updateLocalNeighbors now neighbors = (u, db') ∧
      u = { originatorNode := db.localNodeId, sequenceNumber := db.localSequence, neighbors,
            ttl := defaultTopologyTtl, timestamp := now } ∧
      db'.localNodeId = db.localNodeId ∧ db'.localSequence = db.localSequence + 1 ∧
      db'.nodes = db.nodes.insert db.localNodeId (entryOf now u) :=
  ⟨_, _, rfl, rfl, rfl, rfl, rfl⟩

/-- Every entry is still of an update that was sent when one is written for such an
update. -/
theorem Once.sent_write (h : Once base g) {node : NodeId} {db : TopologyDatabase} {now : Nat}
    {u : TopologyUpdate}
    (hnodes : db.nodes = (g.dbs node).nodes.insert u.originatorNode (entryOf now u))
    {copies : List TopologyUpdate} (hsub : g.copies ⊆ copies) (hu : u ∈ copies) {v o : NodeId}
    {entry : NodeInfo} (hentry : (Function.update g.dbs node db v).nodes.lookup o = some entry) :
    ∃ w ∈ copies, w.originatorNode = o ∧ w.sequenceNumber = entry.sequenceNumber := by
  rw [lookup_update_dbs hnodes] at hentry
  split at hentry
  next hvo =>
    obtain rfl := Option.some.inj hentry
    exact ⟨u, hu, hvo.2.symm, rfl⟩
  next =>
    obtain ⟨w, hw, hwo⟩ := h.sent v o entry hentry
    exact ⟨w, hsub hw, hwo⟩

/-- The next number of a node is above all it has sent. -/
theorem Once.rank_le_next (h : Once base g) {u : TopologyUpdate}
    (hnum : u.sequenceNumber = (g.dbs u.originatorNode).localSequence)
    (hrank : ∀ w ∈ g.copies, rank base w < 2 ^ 63) {w : TopologyUpdate} (hw : w ∈ g.copies)
    (ho : w.originatorNode = u.originatorNode) : rank base w ≤ rank base u := by
  obtain ⟨entry, hentry, hle⟩ := h.own w hw
  rw [ho] at hentry hle
  obtain ⟨v, hv, hvo, hvs⟩ := h.sent _ _ entry hentry
  have hvrank := hrank v hv
  have hnext : u.sequenceNumber = entry.sequenceNumber + 1 := hnum.trans (h.next _ entry hentry)
  unfold rank at hvrank ⊢
  rw [hvo, hvs] at hvrank
  rw [hnext, rank_add_one hvrank, ho]
  unfold rank at hle
  rw [ho] at hle
  omega

/-- **An advertisement** goes to the top of its originator's window. -/
theorem Once.issue (h : Once base g) {node : NodeId} {now : Nat} {neighbors : List NeighborInfo}
    (hrank : ∀ u ∈ (g.issue node now neighbors).copies, rank base u < 2 ^ 63) :
    Once base (g.issue node now neighbors) := by
  obtain ⟨u, db, hissued, hu, hid, hseq, hnodes⟩ :=
    updateLocalNeighbors_spec (g.dbs node) now neighbors
  have horig : u.originatorNode = node := by rw [hu]; exact h.localNodeId node
  have hnum : u.sequenceNumber = (g.dbs node).localSequence := by rw [hu]
  rw [h.localNodeId node, ← horig] at hnodes
  have hissue : g.issue node now neighbors
      = { g with dbs := Function.update g.dbs node db, copies := g.copies ++ [u] } := by
    unfold Gossip.issue
    rw [hissued]
  rw [hissue] at hrank ⊢
  subst horig
  have htop := fun {w} => h.rank_le_next (w := w) hnum fun v hv =>
    hrank v (List.mem_append_left _ hv)
  have hlookup := fun v o => lookup_update_dbs (v := v) (o := o) hnodes
  refine ⟨localNodeId_update h.localNodeId hid, fun v o entry => ?_, fun v entry hentry => ?_,
    fun w hw => ?_, fun a ha => ?_, h.nodup, h.rebroadcast⟩
  · exact h.sent_write hnodes (List.subset_append_left _ _)
      (List.mem_append_right _ (List.mem_singleton_self u))
  · show (Function.update g.dbs u.originatorNode db v).localSequence = _
    rw [hlookup] at hentry
    split at hentry
    next hv =>
      obtain rfl := Option.some.inj hentry
      rw [hv.1, Function.update_self, hseq, entryOf_sequenceNumber, hnum]
    next hv =>
      have hne : v ≠ u.originatorNode := fun heq => hv ⟨heq, heq⟩
      rw [Function.update_of_ne hne]
      exact h.next v entry hentry
  · rw [hlookup]
    by_cases ho : w.originatorNode = u.originatorNode
    · rw [if_pos ⟨ho, ho⟩]
      refine ⟨_, rfl, ?_⟩
      have hle : rank base w ≤ rank base u := by
        rcases List.mem_append.mp hw with hold | hnew
        · exact htop hold ho
        · rw [List.mem_singleton.mp hnew]
      unfold rank at hle ⊢
      rw [ho] at hle ⊢
      exact hle
    · rw [if_neg (fun hv => ho hv.1)]
      rcases List.mem_append.mp hw with hold | hnew
      · exact h.own w hold
      · exact absurd (congrArg _ (List.mem_singleton.mp hnew)) ho
  · obtain ⟨hne, entry, hentry, hle⟩ := h.above a ha
    refine ⟨hne, entry, ?_, hle⟩
    rw [hlookup, if_neg (fun hv => hne (hv.1.trans hv.2.symm))]
    exact hentry

/-- An update that a node accepts is above the entry it meets. -/
theorem Once.lt_of_newer (h : Once base g) {node : NodeId} {u : TopologyUpdate}
    (hu : u ∈ g.copies) (hrank : ∀ w ∈ g.copies, rank base w < 2 ^ 63)
    (hnew : ∀ existing, (g.dbs node).nodes.lookup u.originatorNode = some existing →
      u.isNewerThan existing.sequenceNumber = true) {entry : NodeInfo}
    (hentry : (g.dbs node).nodes.lookup u.originatorNode = some entry) :
    (entry.sequenceNumber - base u.originatorNode).toNat < rank base u := by
  obtain ⟨w, hw, hwo, hws⟩ := h.sent node _ entry hentry
  have hnewer := hnew entry hentry
  rw [← hws, isNewerThan_iff_rank hwo.symm (hrank u hu) (hrank w hw)] at hnewer
  unfold rank at hnewer
  rw [hwo, hws] at hnewer
  exact hnewer

/-- A node that has an older entry or none did not issue the update: its own entry is above
all it has sent. -/
theorem Once.ne_originator (h : Once base g) {node : NodeId} {u : TopologyUpdate}
    (hu : u ∈ g.copies)
    (hup : ∀ entry, (g.dbs node).nodes.lookup u.originatorNode = some entry →
      (entry.sequenceNumber - base u.originatorNode).toNat < rank base u) :
    node ≠ u.originatorNode := by
  intro heq
  obtain ⟨entry, hentry, hle⟩ := h.own u hu
  have hlt := hup entry (heq ▸ hentry)
  omega

/-- And it has not accepted the update before. -/
theorem Once.not_accepted (h : Once base g) {node : NodeId} {u : TopologyUpdate}
    (hup : ∀ entry, (g.dbs node).nodes.lookup u.originatorNode = some entry →
      (entry.sequenceNumber - base u.originatorNode).toNat < rank base u) :
    Acceptance.of node u ∉ g.accepted := by
  intro hin
  obtain ⟨-, entry, hentry, hle⟩ := h.above _ hin
  have hlt := hup entry hentry
  unfold rank at hlt
  exact absurd hle (Nat.not_le.mpr hlt)

/-- **An arriving copy** is dropped, or lifts the entry of a node that is not its
originator. -/
theorem Once.receive (h : Once base g) {node : NodeId} {now : Nat} {u : TopologyUpdate}
    (hu : u ∈ g.copies) (hrank : ∀ w ∈ g.copies, rank base w < 2 ^ 63) :
    Once base (g.receive node now u) := by
  rcases g.receive_cases node now u with
    hsame | ⟨hnew, db, forwarded, hid, hseq, hnodes, hforwarded, hreceive⟩
  · rw [hsame]
    exact h
  have hup : ∀ entry, (g.dbs node).nodes.lookup u.originatorNode = some entry →
      (entry.sequenceNumber - base u.originatorNode).toNat < rank base u :=
    fun _ => h.lt_of_newer hu hrank hnew
  have hne := h.ne_originator hu hup
  have hfresh := h.not_accepted hup
  have hlookup := fun v o => lookup_update_dbs (v := v) (o := o) hnodes
  -- no node's own entry is written
  have hown : ∀ v, (Function.update g.dbs node db v).nodes.lookup v
      = (g.dbs v).nodes.lookup v := by
    intro v
    rw [hlookup, if_neg (fun hv => hne (hv.1.symm.trans hv.2))]
  rw [hreceive]
  refine ⟨localNodeId_update h.localNodeId hid, fun v o entry => ?_, fun v entry hentry => ?_,
    fun w hw => ?_, fun a ha => ?_, ?_, ?_⟩
  · exact h.sent_write hnodes (List.subset_append_left _ _) (List.mem_append_left _ hu)
  · show (Function.update g.dbs node db v).localSequence = _
    rw [hown] at hentry
    by_cases hv : v = node
    · subst hv
      rw [Function.update_self, hseq]
      exact h.next v entry hentry
    · rw [Function.update_of_ne hv]
      exact h.next v entry hentry
  · rw [hown]
    rcases List.mem_append.mp hw with hold | hnew'
    · exact h.own w hold
    · rcases hforwarded with rfl | rfl
      · exact absurd hnew' List.not_mem_nil
      · rw [List.mem_singleton.mp hnew']
        exact h.own u hu
  · rw [hlookup]
    rcases List.mem_append.mp ha with hold | hnew'
    · obtain ⟨hne', entry, hentry, hle⟩ := h.above a hold
      refine ⟨hne', ?_⟩
      split
      next hv =>
        refine ⟨_, rfl, ?_⟩
        rw [hv.1, hv.2] at hentry
        rw [hv.2] at hle ⊢
        exact Nat.le_trans hle (Nat.le_of_lt (hup entry hentry))
      next => exact ⟨entry, hentry, hle⟩
    · rw [List.mem_singleton.mp hnew']
      exact ⟨hne, _, if_pos ⟨rfl, rfl⟩, Nat.le_refl _⟩
  · refine List.nodup_append.mpr ⟨h.nodup, List.nodup_singleton _, fun a ha b hb => ?_⟩
    rw [List.mem_singleton.mp hb]
    exact fun heq => hfresh (heq ▸ ha)
  · rw [List.map_append]
    refine List.Sublist.append h.rebroadcast ?_
    rcases hforwarded with rfl | rfl
    · exact List.nil_sublist _
    · exact List.Sublist.refl _

/-! ## Runs -/

/-- Nothing that was sent is forgotten. -/
theorem Gossip.copies_step (g : Gossip) (event : FloodEvent) :
    g.copies ⊆ (g.step event).copies := by
  intro u hu
  cases event with
  | issue node now neighbors => exact List.mem_append_left _ hu
  | receive node now copy =>
    unfold Gossip.step
    dsimp only
    split
    · exact List.mem_append_left _ hu
    · exact hu

theorem Gossip.copies_run (g : Gossip) (events : List FloodEvent) :
    g.copies ⊆ (g.run events).copies := by
  induction events generalizing g with
  | nil => exact fun _ h => h
  | cons event events ih => exact fun _ h => ih (g.step event) (g.copies_step event h)

/-- **A run** in one window. -/
theorem Once.run {g : Gossip} (h : Once base g) (events : List FloodEvent)
    (hrank : ∀ u ∈ (g.run events).copies, rank base u < 2 ^ 63) : Once base (g.run events) := by
  induction events generalizing g with
  | nil => exact h
  | cons event events ih =>
    have hnext : ∀ u ∈ (g.step event).copies, rank base u < 2 ^ 63 := fun u hu =>
      hrank u ((g.step event).copies_run events hu)
    have hstep : Once base (g.step event) := by
      cases event with
      | issue node now neighbors => exact h.issue hnext
      | receive node now copy =>
        unfold Gossip.step
        dsimp only
        split
        next u hget =>
          exact h.receive (List.mem_of_getElem? hget) fun w hw => hnext w (g.copies_step _ hw)
        next => exact h
    exact ih hstep hrank

/-- **A flood does not repeat.** In every run in which the sequence numbers of each
originator stay in one window, no node accepts or broadcasts again the same update
twice, and no originator its own. -/
theorem flood_once (events : List FloodEvent) (h : InWindow (Gossip.new.run events).copies) :
    let g := Gossip.new.run events
    g.accepted.Nodup ∧ (g.rebroadcast.map fun r => Acceptance.of r.1 r.2).Nodup ∧
      (∀ a ∈ g.accepted, a.node ≠ a.originator) ∧
      ∀ r ∈ g.rebroadcast, r.2.originatorNode ≠ r.1 := by
  choose base len hlen hwindow using h
  have hrank : ∀ u ∈ (Gossip.new.run events).copies, rank base u < 2 ^ 63 := fun u hu =>
    Nat.lt_trans (hwindow u.originatorNode u hu rfl) (hlen u.originatorNode)
  have honce := (once_new base).run events hrank
  have hforeign := fun a ha => (honce.above a ha).1
  refine ⟨honce.nodup, honce.rebroadcast.nodup honce.nodup, hforeign, fun r hr => ?_⟩
  exact (hforeign _ (honce.rebroadcast.subset (List.mem_map_of_mem hr))).symm

/-- Node 1 floods, and its copies arrive at 2, twice, at 3 and back at 1. -/
theorem flood_once_echo :
    let g := Gossip.new.run [.issue 1 100 [⟨2, 10, none⟩], .receive 2 101 0, .receive 1 102 1,
      .receive 2 103 0, .receive 3 104 1, .receive 2 105 2]
    g.accepted = [⟨2, 1, 1⟩, ⟨3, 1, 1⟩] ∧ g.accepted.Nodup := by
  refine ⟨by decide +kernel, (flood_once _ fun o => ⟨0, 2, by decide, ?_⟩).1⟩
  have hall : ∀ u ∈ (Gossip.new.run [.issue 1 100 [⟨2, 10, none⟩], .receive 2 101 0,
      .receive 1 102 1, .receive 2 103 0, .receive 3 104 1, .receive 2 105 2]).copies,
      (u.sequenceNumber - 0).toNat < 2 := by decide +kernel
  exact fun u hu _ => hall u hu

end MeshCore.Topology
