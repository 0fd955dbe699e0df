import MeshCore.Topology.Readvertise

/-!
# Copying a database

A node that gets a new neighbour sends it what it knows: `get_all_topology_updates` makes an
update of every entry but its own, with the map of links written out as a list, and
`process_topology_update` makes a map of that list again. `links` is what of an entry
survives this, and `sync_copies_database` that it does: in whatever order the updates come,
the receiver ends with the sequence numbers and the links of the sender wherever it had no
entry or an older one.

Repeated neighbours appear only in the list that `update_local_neighbors` is called with.
That function and `process_topology_update` each make a map of the same list, with a loop of
its own, and in both the last mention of a neighbour wins.
-/

namespace MeshCore.Topology

open MeshCore.Lib

/-- The link of an entry to a neighbour, without the time it was seen. -/
def NodeInfo.links (info : NodeInfo) (v : NodeId) : Option (UInt32 × Option String) :=
  (info.neighbors.lookup v).map fun link => (link.cost, link.addr)

/-- The entry says the same as the other, apart from times. -/
def NodeInfo.Copies (info other : NodeInfo) : Prop :=
  info.sequenceNumber = other.sequenceNumber ∧ ∀ v, info.links v = other.links v

/-- The update that `get_all_topology_updates` makes of an entry. -/
def readvertised (now : Nat) (o : NodeId) (info : NodeInfo) : TopologyUpdate :=
  { originatorNode := o, sequenceNumber := info.sequenceNumber
    neighbors := info.neighbors.entries.map fun l =>
      { nodeId := l.1, cost := l.2.cost, addr := l.2.addr }
    ttl := defaultTopologyTtl - 1, timestamp := now }

theorem mem_getAllTopologyUpdates_iff {db : TopologyDatabase} {now : Nat} {u : TopologyUpdate} :
    u ∈ db.getAllTopologyUpdates now ↔
      ∃ o info, db.nodes.lookup o = some info ∧ o ≠ db.localNodeId ∧
        u = readvertised now o info := by
  unfold TopologyDatabase.getAllTopologyUpdates
  rw [List.mem_map]
  constructor
  · intro h
    obtain ⟨⟨o, info⟩, he, heq⟩ := h
    obtain ⟨hmem, hne⟩ := List.mem_filter.mp he
    exact ⟨o, info, HashMap.mem_entries_iff.mp hmem, of_decide_eq_true hne, heq.symm⟩
  · intro h
    obtain ⟨o, info, hlookup, hne, heq⟩ := h
    refine ⟨⟨o, info⟩, List.mem_filter.mpr ⟨HashMap.mem_entries_iff.mpr hlookup, ?_⟩, heq.symm⟩
    exact decide_eq_true hne

/-! ## From a map to a list and back -/

/-- The links of the entry an update leaves: the last mention of each neighbour. -/
theorem entryOf_links (now : Nat) (u : TopologyUpdate) (v : NodeId) :
    (entryOf now u).links v
      = (u.neighbors.reverse.find? fun n => n.nodeId = v).map fun n => (n.cost, n.addr) := by
  show ((TopologyDatabase.neighborMap now u.neighbors).lookup v).map _ = _
  rw [neighborMap_lookup, Option.map_map]
  rfl

/-- **An entry survives the round trip**: the receiver has its sequence number and links. -/
theorem entryOf_readvertised (now sent : Nat) (o : NodeId) (info : NodeInfo) :
    (entryOf now (readvertised sent o info)).Copies info := by
  refine ⟨rfl, fun v => ?_⟩
  rw [entryOf_links]
  unfold readvertised NodeInfo.links
  dsimp only
  rw [← List.map_reverse, List.find?_map, Option.map_map, ← HashMap.find?_reverse_entries,
    Option.map_map]
  rfl

/-- Two nodes that make entries of one list have the same links. -/
theorem entryOf_links_congr (now now' : Nat) {u u' : TopologyUpdate}
    (h : u.neighbors = u'.neighbors) (v : NodeId) :
    (entryOf now u).links v = (entryOf now' u').links v := by
  rw [entryOf_links, entryOf_links, h]

/-! ## Processing the updates -/

/-- An update about another originator changes nothing about this one. -/
theorem process_lookup_ne {o : NodeId} {u : TopologyUpdate} (h : u.originatorNode ≠ o)
    (db : TopologyDatabase) (now : Nat) :
    (db.processTopologyUpdate now u).2.nodes.lookup o = db.nodes.lookup o := by
  by_cases hold : maxTopologyAgeSecs < now - u.timestamp
  · rw [process_old db hold]
  · rcases process_fresh db (Nat.le_of_not_lt hold) with ⟨_, _, _, heq⟩ | ⟨_, heq⟩
    · rw [heq]
    · rw [heq]
      exact AList.lookup_insert_ne fun h' => h h'.symm

theorem runUpdates_cons (db : TopologyDatabase) (c : Nat × TopologyUpdate)
    (calls : List (Nat × TopologyUpdate)) :
    runUpdates db (c :: calls) = runUpdates (db.processTopologyUpdate c.1 c.2).2 calls :=
  rfl

theorem runUpdates_lookup_ne {o : NodeId} {calls : List (Nat × TopologyUpdate)}
    (h : ∀ c ∈ calls, c.2.originatorNode ≠ o) (db : TopologyDatabase) :
    (runUpdates db calls).nodes.lookup o = db.nodes.lookup o := by
  induction calls generalizing db with
  | nil => rfl
  | cons c calls ih =>
    rw [runUpdates_cons, ih fun d hd => h d (List.mem_cons_of_mem c hd)]
    exact process_lookup_ne (h c (List.mem_cons_self ..)) db c.1

/-- Once accepted, an update keeps its entry, if all others about its originator are copies
of it. -/
theorem runUpdates_keeps {u : TopologyUpdate} {calls : List (Nat × TopologyUpdate)}
    (honly : ∀ c ∈ calls, c.2.originatorNode = u.originatorNode → c.2 = u)
    (hfresh : ∀ c ∈ calls, c.1 - c.2.timestamp ≤ maxTopologyAgeSecs) {db : TopologyDatabase}
    {now : Nat} (h : db.nodes.lookup u.originatorNode = some (entryOf now u)) :
    (runUpdates db calls).nodes.lookup u.originatorNode = some (entryOf now u) := by
  induction calls generalizing db with
  | nil => exact h
  | cons c calls ih =>
    rw [runUpdates_cons]
    refine ih (fun d hd => honly d (List.mem_cons_of_mem c hd))
      (fun d hd => hfresh d (List.mem_cons_of_mem c hd)) ?_
    by_cases ho : c.2.originatorNode = u.originatorNode
    · rw [process_duplicate (hfresh c (List.mem_cons_self ..))
        ⟨entryOf now u, ho ▸ h, by rw [honly c (List.mem_cons_self ..) ho]; rfl⟩]
      exact h
    · rw [process_lookup_ne ho]
      exact h

/-- An update that is news is taken over, wherever it comes among the others. -/
theorem runUpdates_takes {u : TopologyUpdate} {calls : List (Nat × TopologyUpdate)}
    (honly : ∀ c ∈ calls, c.2.originatorNode = u.originatorNode → c.2 = u)
    (hfresh : ∀ c ∈ calls, c.1 - c.2.timestamp ≤ maxTopologyAgeSecs)
    (hmem : u ∈ calls.map Prod.snd) {db : TopologyDatabase}
    (hnews : ∀ existing, db.nodes.lookup u.originatorNode = some existing →
      u.isNewerThan existing.sequenceNumber = true) :
    ∃ now, (runUpdates db calls).nodes.lookup u.originatorNode = some (entryOf now u) := by
  induction calls generalizing db with
  | nil => cases hmem
  | cons c calls ih =>
    have honly' : ∀ d ∈ calls, d.2.originatorNode = u.originatorNode → d.2 = u := fun d hd =>
      honly d (List.mem_cons_of_mem c hd)
    have hfresh' : ∀ d ∈ calls, d.1 - d.2.timestamp ≤ maxTopologyAgeSecs := fun d hd =>
      hfresh d (List.mem_cons_of_mem c hd)
    rw [runUpdates_cons]
    by_cases ho : c.2.originatorNode = u.originatorNode
    · -- the first update about the originator is accepted
      have hcu := honly c (List.mem_cons_self ..) ho
      refine ⟨c.1, runUpdates_keeps honly' hfresh' ?_⟩
      rcases process_fresh db (hfresh c (List.mem_cons_self ..)) with
        ⟨existing, hl, hold, -⟩ | ⟨-, heq⟩
      · rw [hcu] at hl hold
        exact absurd (hold.symm.trans (hnews existing hl)) (by simp)
      · rw [heq, ho, hcu]
        exact AList.lookup_insert _
    · refine ih honly' hfresh' ?_ ?_
      · rw [List.map_cons] at hmem
        refine (List.mem_cons.mp hmem).resolve_left fun hcu => ho ?_
        rw [hcu]
      · rw [process_lookup_ne ho]
        exact hnews

/-! ## The copy -/

/-- **Synchronisation copies the database.** After the updates of `get_all_topology_updates`,
in any order, the receiver has the sequence number and the links of the sender for every
originator the sender knew and the receiver had nothing newer about, the two local nodes
apart, and its other entries are what they were. -/
theorem runUpdates_copies {sender receiver : TopologyDatabase} {now : Nat}
    {calls : List (Nat × TopologyUpdate)}
    (hcalls : (calls.map Prod.snd).Perm (sender.getAllTopologyUpdates now))
    (hfresh : ∀ c ∈ calls, c.1 - c.2.timestamp ≤ maxTopologyAgeSecs) {o : NodeId}
    {info : NodeInfo} (hinfo : sender.nodes.lookup o = some info) (ho : o ≠ sender.localNodeId)
    (hnews : ∀ existing, receiver.nodes.lookup o = some existing →
      (readvertised now o info).isNewerThan existing.sequenceNumber = true) :
    ∃ copy, (runUpdates receiver calls).nodes.lookup o = some copy ∧ copy.Copies info := by
  have hmem : ∀ c ∈ calls, c.2 ∈ sender.getAllTopologyUpdates now := fun c hc =>
    hcalls.subset (List.mem_map_of_mem hc)
  have honly : ∀ c ∈ calls, c.2.originatorNode = o → c.2 = readvertised now o info := by
    intro c hc hco
    obtain ⟨o', info', hinfo', -, heq⟩ := mem_getAllTopologyUpdates_iff.mp (hmem c hc)
    rw [heq] at hco ⊢
    obtain rfl : o' = o := hco
    rw [Option.some.inj (hinfo.symm.trans hinfo')]
  have hsent : readvertised now o info ∈ calls.map Prod.snd :=
    hcalls.symm.subset (mem_getAllTopologyUpdates_iff.mpr ⟨o, info, hinfo, ho, rfl⟩)
  obtain ⟨at', hlookup⟩ := runUpdates_takes (u := readvertised now o info) honly hfresh hsent hnews
  exact ⟨_, hlookup, entryOf_readvertised at' now o info⟩

/-- What the sender does not know of stays as it is. -/
theorem runUpdates_unknown {sender receiver : TopologyDatabase} {now : Nat}
    {calls : List (Nat × TopologyUpdate)}
    (hcalls : (calls.map Prod.snd).Perm (sender.getAllTopologyUpdates now)) {o : NodeId}
    (ho : sender.nodes.lookup o = none) :
    (runUpdates receiver calls).nodes.lookup o = receiver.nodes.lookup o := by
  refine runUpdates_lookup_ne (fun c hc hco => ?_) receiver
  obtain ⟨o', info, hinfo, -, heq⟩ :=
    mem_getAllTopologyUpdates_iff.mp (hcalls.subset (List.mem_map_of_mem hc))
  rw [heq] at hco
  rw [show o' = o from hco, ho] at hinfo
  cases hinfo

/-- The entry of an accepted advertisement has the links its originator stored for itself. -/
theorem accepted_copies {sender receiver : TopologyDatabase} {now now' : Nat}
    {neighbors : List NeighborInfo}
    (haccept : (receiver.processTopologyUpdate now'
      (sender.updateLocalNeighbors now neighbors).1).1 = true) :
    ∃ stored copy,
      (sender.updateLocalNeighbors now neighbors).2.nodes.lookup sender.localNodeId = some stored ∧
      (receiver.processTopologyUpdate now'
        (sender.updateLocalNeighbors now neighbors).1).2.nodes.lookup sender.localNodeId
        = some copy ∧ copy.Copies stored := by
  refine ⟨localEntry sender now neighbors,
    entryOf now' (sender.updateLocalNeighbors now neighbors).1, AList.lookup_insert _, ?_, rfl,
    fun v => entryOf_links_congr now' now rfl v⟩
  by_cases hold :
    maxTopologyAgeSecs < now' - (sender.updateLocalNeighbors now neighbors).1.timestamp
  · rw [process_old receiver hold] at haccept
    cases haccept
  · rcases process_fresh receiver (Nat.le_of_not_lt hold) with ⟨_, _, _, heq⟩ | ⟨_, heq⟩
    · rw [heq] at haccept
      cases haccept
    · rw [heq]
      exact AList.lookup_insert _

/-- **Synchronisation copies the database**, and an advertisement the links of its
originator. -/
theorem sync_copies_database :
    (∀ (sender receiver : TopologyDatabase) (now : Nat) (calls : List (Nat × TopologyUpdate)),
      (∀ o info, sender.nodes.lookup o = some info → o ≠ sender.localNodeId →
        o ≠ receiver.localNodeId → ∀ existing, receiver.nodes.lookup o = some existing →
        (readvertised now o info).isNewerThan existing.sequenceNumber = true) →
      (calls.map Prod.snd).Perm (sender.getAllTopologyUpdates now) →
      (∀ c ∈ calls, c.1 - c.2.timestamp ≤ maxTopologyAgeSecs) →
      (∀ o info, sender.nodes.lookup o = some info → o ≠ sender.localNodeId →
        o ≠ receiver.localNodeId →
        ∃ copy, (runUpdates receiver calls).nodes.lookup o = some copy ∧ copy.Copies info) ∧
      ∀ o, sender.nodes.lookup o = none →
        (runUpdates receiver calls).nodes.lookup o = receiver.nodes.lookup o) ∧
    ∀ (sender receiver : TopologyDatabase) (now now' : Nat) (neighbors : List NeighborInfo),
      (receiver.processTopologyUpdate now' (sender.updateLocalNeighbors now neighbors).1).1
        = true →
      ∃ stored copy,
        (sender.updateLocalNeighbors now neighbors).2.nodes.lookup sender.localNodeId
          = some stored ∧
        (receiver.processTopologyUpdate now'
          (sender.updateLocalNeighbors now neighbors).1).2.nodes.lookup sender.localNodeId
          = some copy ∧ copy.Copies stored := by
  refine ⟨fun sender receiver now calls hnews hcalls hfresh => ⟨?_, ?_⟩, ?_⟩
  · intro o info hinfo hlocal hpeer
    exact runUpdates_copies hcalls hfresh hinfo hlocal (hnews o info hinfo hlocal hpeer)
  · intro o ho
    exact runUpdates_unknown hcalls ho
  · intro sender receiver now now' neighbors haccept
    exact accepted_copies haccept

/-- Node 3, new, hears of node 2 from node 1, and from node 2 itself with node 4 listed
twice. -/
theorem sync_copies_database_sample :
    (∃ copy, (runUpdates (.new 3) (((sampleDatabase 0 1).getAllTopologyUpdates 0).map
        fun u => (0, u))).nodes.lookup 2 = some copy ∧ copy.links 3 = some (5, none)) ∧
    ∃ copy, ((TopologyDatabase.new 3).processTopologyUpdate 7
        ((TopologyDatabase.new 2).updateLocalNeighbors 0 [⟨4, 10, none⟩, ⟨4, 20, none⟩]).1
      ).2.nodes.lookup 2 = some copy ∧ copy.links 4 = some (20, none) := by
  obtain ⟨hsync, hadvertise⟩ := sync_copies_database
  constructor
  · obtain ⟨hcopies, -⟩ := hsync (sampleDatabase 0 1) (.new 3) 0
      (((sampleDatabase 0 1).getAllTopologyUpdates 0).map fun u => (0, u))
      (fun _ _ _ _ _ _ h => absurd h (by simp [TopologyDatabase.new]))
      (by rw [List.map_map, show Prod.snd ∘ _ = id from rfl, List.map_id])
      (by decide +kernel)
    obtain ⟨copy, hcopy, -, hlinks⟩ := hcopies 2 _ (by rfl) (by decide) (by decide)
    exact ⟨copy, hcopy, (hlinks 3).trans (by decide +kernel)⟩
  · obtain ⟨stored, copy, hstored, hcopy, -, hlinks⟩ := hadvertise (.new 2) (.new 3) 0 7
      [⟨4, 10, none⟩, ⟨4, 20, none⟩] (by rfl)
    refine ⟨copy, hcopy, (hlinks 4).trans ?_⟩
    obtain rfl := Option.some.inj hstored
    decide +kernel

end MeshCore.Topology
