import MeshCore.Topology.Duplicates

/-!
# What the nodes believe

Each node has its own view of the mesh: the entries of its database. In every run of any
number of nodes in which the sequence numbers stay in their windows, an entry is the trace
of an advertisement of its originator (`Told`), an entry once written is only replaced by a
newer one (`Gossip.step_entries`), and a node that receives a copy in time has an entry at
least as new as that (`Told.receive_entries`). Hence nodes with the same sequence number
for an originator have the same links for it, and nodes that have received the last
advertisement of every node, in whatever order, by whatever paths and between whichever
others, have the same topology (`nodes_agree`).
-/

namespace MeshCore.Topology

open MeshCore.Lib

/-! ## Truthful entries -/

/-- What holds besides `Once`: an entry is of an advertisement that its originator sent,
and advertisements of a node with the same sequence number list the same neighbours. -/
structure Told (base : NodeId → UInt64) (g : Gossip) : Prop extends Once base g where
  entry : ∀ v o info, (g.dbs v).nodes.lookup o = some info →
    ∃ u ∈ g.copies, u.originatorNode = o ∧ ∃ now, info = entryOf now u
  functional : ∀ u ∈ g.copies, ∀ w ∈ g.copies, u.originatorNode = w.originatorNode →
    u.sequenceNumber = w.sequenceNumber → u.neighbors = w.neighbors

theorem told_new (base : NodeId → UInt64) : Told base .new :=
  ⟨once_new base, fun _ _ _ h => absurd h (by simp [Gossip.new, TopologyDatabase.new]),
    fun _ h => absurd h List.not_mem_nil⟩

variable {base : NodeId → UInt64} {g : Gossip}

/-- The entries of a node after one was written. -/
theorem Told.entry_write (h : Told base g) {node : NodeId} {db : TopologyDatabase} {now : Nat}
    {u : TopologyUpdate}
    (hnodes : db.nodes = (g.dbs node).nodes.insert u.originatorNode (entryOf now u))
    {copies : List TopologyUpdate} (hsub : g.copies ⊆ copies) (hu : u ∈ copies) {v o : NodeId}
    {info : NodeInfo} (hinfo : (Function.update g.dbs node db v).nodes.lookup o = some info) :
    ∃ w ∈ copies, w.originatorNode = o ∧ ∃ now, info = entryOf now w := by
  rw [lookup_update_dbs hnodes] at hinfo
  split at hinfo
  next hvo => exact ⟨u, hu, hvo.2.symm, now, (Option.some.inj hinfo).symm⟩
  next =>
    obtain ⟨w, hw, hwo⟩ := h.entry v o info hinfo
    exact ⟨w, hsub hw, hwo⟩

/-- The next number of a node is above all it has sent. -/
theorem Told.rank_lt_next (h : Told base g) {u : TopologyUpdate}
    (hnum : u.sequenceNumber = (g.dbs u.originatorNode).localSequence)
    (hrank : ∀ w ∈ g.copies, rank base w < 2 ^ 63) {w : TopologyUpdate} (hw : w ∈ g.copies)
    (ho : w.originatorNode = u.originatorNode) : rank base w < rank base u := by
  obtain ⟨info, hinfo, hle⟩ := h.own w hw
  rw [ho] at hinfo hle
  obtain ⟨v, hv, hvo, hvs⟩ := h.sent _ _ info hinfo
  have hvrank := hrank v hv
  unfold rank at hvrank ⊢
  rw [hvo, hvs] at hvrank
  rw [hnum, h.next _ info hinfo, rank_add_one hvrank, ho]
  unfold rank at hle
  rw [ho] at hle
  omega

theorem Told.issue (h : Told base g) {node : NodeId} {now : Nat} {neighbors : List NeighborInfo}
    (hrank : ∀ u ∈ (g.issue node now neighbors).copies, rank base u < 2 ^ 63) :
    Told base (g.issue node now neighbors) := by
  have honce := h.toOnce.issue hrank
  obtain ⟨u, db, hissued, hu, -, -, hnodes⟩ :=
    updateLocalNeighbors_spec (g.dbs node) now neighbors
  have horig : u.originatorNode = node := by rw [hu]; exact h.localNodeId node
  have hnum : u.sequenceNumber = (g.dbs u.originatorNode).localSequence := by rw [horig, hu]
  rw [h.localNodeId node, ← horig] at hnodes
  have hissue : g.issue node now neighbors
      = { g with dbs := Function.update g.dbs node db, copies := g.copies ++ [u] } := by
    unfold Gossip.issue
    rw [hissued]
  rw [hissue] at honce hrank ⊢
  subst horig
  have hbelow : ∀ w ∈ g.copies, w.originatorNode = u.originatorNode →
      w.sequenceNumber ≠ u.sequenceNumber := by
    intro w hw ho hs
    have hlt := h.rank_lt_next hnum (fun v hv => hrank v (List.mem_append_left _ hv)) hw ho
    unfold rank at hlt
    rw [ho, hs] at hlt
    exact absurd hlt (Nat.lt_irrefl _)
  refine ⟨honce, fun v o info => ?_, fun w hw w' hw' ho hs => ?_⟩
  · exact h.entry_write hnodes (List.subset_append_left _ _)
      (List.mem_append_right _ (List.mem_singleton_self u))
  · rcases List.mem_append.mp hw with hold | hnew <;>
      rcases List.mem_append.mp hw' with hold' | hnew'
    · exact h.functional w hold w' hold' ho hs
    · obtain rfl := List.mem_singleton.mp hnew'
      exact absurd hs (hbelow w hold ho)
    · obtain rfl := List.mem_singleton.mp hnew
      exact absurd hs.symm (hbelow w' hold' ho.symm)
    · rw [List.mem_singleton.mp hnew, List.mem_singleton.mp hnew']

theorem Told.receive (h : Told base g) {node : NodeId} {now : Nat} {u : TopologyUpdate}
    (hu : u ∈ g.copies) (hrank : ∀ w ∈ g.copies, rank base w < 2 ^ 63) :
    Told base (g.receive node now u) := by
  have honce : Once base (g.receive node now u) := h.toOnce.receive hu hrank
  rcases g.receive_cases node now u with
    hsame | ⟨-, db, forwarded, -, -, hnodes, hforwarded, hreceive⟩
  · rw [hsame]
    exact h
  -- a copy that goes on lists the same neighbours
  have hcopy : ∀ w ∈ g.copies ++ forwarded, ∃ w' ∈ g.copies, w'.originatorNode = w.originatorNode ∧
      w'.sequenceNumber = w.sequenceNumber ∧ w'.neighbors = w.neighbors := by
    intro w hw
    rcases List.mem_append.mp hw with hold | hnew
    · exact ⟨w, hold, rfl, rfl, rfl⟩
    · rcases hforwarded with rfl | rfl
      · exact absurd hnew List.not_mem_nil
      · rw [List.mem_singleton.mp hnew]
        exact ⟨u, hu, rfl, rfl, rfl⟩
  rw [hreceive] at honce ⊢
  refine ⟨honce, fun v o info => ?_, fun w hw w' hw' ho hs => ?_⟩
  · exact h.entry_write hnodes (List.subset_append_left _ _) (List.mem_append_left _ hu)
  · obtain ⟨x, hx, hxo, hxs, hxn⟩ := hcopy w hw
    obtain ⟨x', hx', hxo', hxs', hxn'⟩ := hcopy w' hw'
    rw [← hxn, ← hxn']
    exact h.functional x hx x' hx' ((hxo.trans ho).trans hxo'.symm) ((hxs.trans hs).trans hxs'.symm)

/-- **Every event keeps the entries truthful.** -/
theorem Told.step (h : Told base g) {event : FloodEvent}
    (hrank : ∀ u ∈ (g.step event).copies, rank base u < 2 ^ 63) : Told base (g.step event) := by
  cases event with
  | issue node now neighbors => exact h.issue hrank
  | receive node now copy =>
    have hnow : ∀ u ∈ g.copies, rank base u < 2 ^ 63 := fun u hu => hrank u (g.copies_step _ hu)
    unfold Gossip.step
    dsimp only
    split
    next u hget => exact h.receive (List.mem_of_getElem? hget) hnow
    next => exact h

theorem Told.run (h : Told base g) (events : List FloodEvent)
    (hrank : ∀ u ∈ (g.run events).copies, rank base u < 2 ^ 63) : Told base (g.run events) := by
  induction events generalizing g with
  | nil => exact h
  | cons event events ih =>
    refine ih (h.step fun u hu => ?_) hrank
    exact hrank u ((g.step event).copies_run events hu)

/-! ## Entries only get newer -/

/-- A node has an entry for an originator at least as far up its window as `r`. -/
def Gossip.Reaches (base : NodeId → UInt64) (g : Gossip) (v o : NodeId) (r : Nat) : Prop :=
  ∃ info, (g.dbs v).nodes.lookup o = some info ∧ r ≤ (info.sequenceNumber - base o).toNat

/-- What a node reaches it goes on reaching. -/
theorem Told.step_reaches (h : Told base g) {event : FloodEvent}
    (hrank : ∀ u ∈ (g.step event).copies, rank base u < 2 ^ 63) {v o : NodeId} {r : Nat}
    (hreach : g.Reaches base v o r) : (g.step event).Reaches base v o r := by
  obtain ⟨info, hinfo, hle⟩ := hreach
  have hnow : ∀ u ∈ g.copies, rank base u < 2 ^ 63 := fun u hu => hrank u (g.copies_step _ hu)
  cases event with
  | issue node now neighbors =>
    obtain ⟨u, db, hissued, hu, -, -, hnodes⟩ :=
      updateLocalNeighbors_spec (g.dbs node) now neighbors
    have horig : u.originatorNode = node := by rw [hu]; exact h.localNodeId node
    have hnum : u.sequenceNumber = (g.dbs u.originatorNode).localSequence := by rw [horig, hu]
    rw [h.localNodeId node] at hnodes
    unfold Gossip.step Gossip.issue Gossip.Reaches
    dsimp only
    rw [hissued]
    dsimp only
    rw [lookup_update_dbs hnodes]
    split
    next hvo =>
      obtain ⟨rfl, rfl⟩ := hvo
      obtain ⟨w, hw, hwo, hws⟩ := h.sent _ _ info hinfo
      have hlt := h.rank_lt_next hnum hnow hw (hwo.trans horig.symm)
      unfold rank at hlt
      rw [hwo, hws, horig] at hlt
      exact ⟨_, rfl, Nat.le_trans hle (Nat.le_of_lt hlt)⟩
    next => exact ⟨info, hinfo, hle⟩
  | receive node now copy =>
    unfold Gossip.step
    dsimp only
    split
    next u hget =>
      have hu := List.mem_of_getElem? hget
      rcases g.receive_cases node now u with
        hsame | ⟨hnew, db, forwarded, -, -, hnodes, -, hreceive⟩
      · rw [hsame]
        exact ⟨info, hinfo, hle⟩
      · rw [hreceive]
        unfold Gossip.Reaches
        dsimp only
        rw [lookup_update_dbs hnodes]
        split
        next hvo =>
          obtain ⟨rfl, rfl⟩ := hvo
          exact ⟨_, rfl, Nat.le_trans hle (Nat.le_of_lt (h.lt_of_newer hu hnow hnew hinfo))⟩
        next => exact ⟨info, hinfo, hle⟩
    next => exact ⟨info, hinfo, hle⟩

theorem Told.run_reaches (h : Told base g) {events : List FloodEvent}
    (hrank : ∀ u ∈ (g.run events).copies, rank base u < 2 ^ 63) {v o : NodeId} {r : Nat}
    (hreach : g.Reaches base v o r) : (g.run events).Reaches base v o r := by
  induction events generalizing g with
  | nil => exact hreach
  | cons event events ih =>
    have hstep : ∀ u ∈ (g.step event).copies, rank base u < 2 ^ 63 := fun u hu =>
      hrank u ((g.step event).copies_run events hu)
    exact ih (h.step hstep) hrank (h.step_reaches hstep hreach)

/-- **A copy that arrives in time is not missed**: the node has an entry at least as new. -/
theorem Told.receive_reaches (h : Told base g) {node : NodeId} {now : Nat} {u : TopologyUpdate}
    (hu : u ∈ g.copies) (hrank : ∀ w ∈ g.copies, rank base w < 2 ^ 63)
    (hfresh : now - u.timestamp ≤ maxTopologyAgeSecs) :
    (g.receive node now u).Reaches base node u.originatorNode (rank base u) := by
  unfold Gossip.receive handleReceivedUpdate Gossip.Reaches
  rcases process_fresh (g.dbs node) hfresh with ⟨info, hinfo, hold, heq⟩ | ⟨-, heq⟩
  · rw [heq]
    dsimp only
    rw [Function.update_eq_self]
    refine ⟨info, hinfo, ?_⟩
    -- what was sent and is not older
    obtain ⟨w, hw, hwo, hws⟩ := h.sent node _ info hinfo
    have hnot : ¬ rank base w < rank base u := by
      rw [← isNewerThan_iff_rank hwo.symm (hrank u hu) (hrank w hw), hws, hold]
      simp
    unfold rank at hnot ⊢
    rw [hwo, hws] at hnot
    exact Nat.not_lt.mp hnot
  · rw [heq]
    dsimp only
    rw [Function.update_self]
    exact ⟨_, AList.lookup_insert _, Nat.le_refl _⟩

/-! ## Agreement -/

/-- A node has received the last advertisement of an originator, in time. An originator
that has sent nothing has nothing to be received. -/
def Heard (events : List FloodEvent) (v o : NodeId) : Prop :=
  ∀ own, ((Gossip.new.run events).dbs o).nodes.lookup o = some own →
    v = o ∨ ∃ before now copy after u, events = before ++ .receive v now copy :: after ∧
      (Gossip.new.run before).copies[copy]? = some u ∧ u.originatorNode = o ∧
      u.sequenceNumber = own.sequenceNumber ∧ now - u.timestamp ≤ maxTopologyAgeSecs

/-- Who has received the last advertisement has its sequence number. -/
theorem Told.of_heard {events : List FloodEvent}
    (hrank : ∀ u ∈ (Gossip.new.run events).copies, rank base u < 2 ^ 63) {v o : NodeId}
    (hheard : Heard events v o) {own : NodeInfo}
    (hown : ((Gossip.new.run events).dbs o).nodes.lookup o = some own) :
    ∃ info, ((Gossip.new.run events).dbs v).nodes.lookup o = some info ∧
      info.sequenceNumber = own.sequenceNumber := by
  rcases hheard own hown with rfl | ⟨before, now, copy, after, u, rfl, hget, rfl, hseq, hfresh⟩
  · exact ⟨own, hown, rfl⟩
  have htold := (told_new base).run _ hrank
  -- the run up to the arrival of the copy, and from there on
  have hstep : (Gossip.new.run before).step (.receive v now copy)
      = (Gossip.new.run before).receive v now u := by
    unfold Gossip.step
    dsimp only
    rw [hget]
  have hrun : Gossip.new.run (before ++ .receive v now copy :: after)
      = ((Gossip.new.run before).receive v now u).run after :=
    (List.foldl_append ..).trans (congrArg (fun g => Gossip.run g after) hstep)
  rw [hrun] at hrank htold hown ⊢
  have hu := List.mem_of_getElem? hget
  have hmiddle : ∀ w ∈ ((Gossip.new.run before).receive v now u).copies, rank base w < 2 ^ 63 :=
    fun w hw => hrank w (Gossip.copies_run _ after hw)
  have hbefore : ∀ w ∈ (Gossip.new.run before).copies, rank base w < 2 ^ 63 :=
    fun w hw => hmiddle w (List.mem_append_left _ hw)
  have htoldBefore := (told_new base).run before hbefore
  obtain ⟨info, hinfo, hle⟩ := (htoldBefore.receive hu hbefore).run_reaches hrank
    (htoldBefore.receive_reaches hu hbefore hfresh)
  refine ⟨info, hinfo, ?_⟩
  -- its entry is of something the originator sent, which is no newer than its own entry
  obtain ⟨w, hw, hwo, hws⟩ := htold.sent v _ info hinfo
  obtain ⟨own', hown', hbelow⟩ := htold.own w hw
  rw [hwo, hown] at hown'
  obtain rfl := Option.some.inj hown'
  unfold rank at hle hbelow
  rw [hwo, hws] at hbelow
  rw [hseq] at hle
  have hsub := UInt64.toNat.inj (Nat.le_antisymm hbelow hle)
  have hadd := congrArg (· + base u.originatorNode) hsub
  simpa only [UInt64.sub_add_cancel] using hadd

/-- An entry shows what its update says. -/
theorem Told.holds (h : Told base g) {v o : NodeId} {info : NodeInfo}
    (hinfo : (g.dbs v).nodes.lookup o = some info) :
    ∃ u ∈ g.copies, u.originatorNode = o ∧ u.sequenceNumber = info.sequenceNumber ∧
      Holds (g.dbs v) u := by
  obtain ⟨u, hu, rfl, now, rfl⟩ := h.entry v o info hinfo
  exact ⟨u, hu, rfl, rfl, holds_of_lookup hinfo⟩

/-- Entries with the same sequence number show the same update. -/
theorem Told.holds_same (h : Told base g) {v v' o : NodeId} {info info' : NodeInfo}
    (hinfo : (g.dbs v).nodes.lookup o = some info)
    (hinfo' : (g.dbs v').nodes.lookup o = some info')
    (hseq : info.sequenceNumber = info'.sequenceNumber) :
    ∃ u ∈ g.copies, u.originatorNode = o ∧ Holds (g.dbs v) u ∧ Holds (g.dbs v') u := by
  obtain ⟨u, hu, ho, hs, hholds⟩ := h.holds hinfo
  obtain ⟨w, hw, hwo, hws, hwholds⟩ := h.holds hinfo'
  have hsame : w.sequenceNumber = u.sequenceNumber := hws.trans (hseq.symm.trans hs.symm)
  have horig : w.originatorNode = u.originatorNode := hwo.trans ho.symm
  exact ⟨u, hu, ho, hholds, hwholds.congr horig hsame (h.functional w hw u hu horig hsame)⟩

/-- Nodes that have heard everyone have the same topology. -/
theorem Told.sameTopology {events : List FloodEvent}
    (hrank : ∀ u ∈ (Gossip.new.run events).copies, rank base u < 2 ^ 63) {v v' : NodeId}
    (hv : ∀ o, Heard events v o) (hv' : ∀ o, Heard events v' o) :
    SameTopology ((Gossip.new.run events).dbs v).nodes ((Gossip.new.run events).dbs v').nodes := by
  have htold := (told_new base).run _ hrank
  intro o n
  cases hown : ((Gossip.new.run events).dbs o).nodes.lookup o with
  | some own =>
    obtain ⟨info, hinfo, hseq⟩ := Told.of_heard hrank (hv o) hown
    obtain ⟨info', hinfo', hseq'⟩ := Told.of_heard hrank (hv' o) hown
    obtain ⟨u, -, rfl, hholds, hholds'⟩ := htold.holds_same hinfo hinfo' (hseq.trans hseq'.symm)
    exact hholds.links_eq hholds' n
  | none =>
    -- nobody has an entry for a node that has sent nothing
    have hnone : ∀ v, ((Gossip.new.run events).dbs v).nodes.lookup o = none := by
      intro v
      rw [Option.eq_none_iff_forall_ne_some]
      intro info hinfo
      obtain ⟨u, hu, rfl, -⟩ := htold.sent v o info hinfo
      obtain ⟨own, hown', -⟩ := htold.own u hu
      rw [hown] at hown'
      exact absurd hown' (by simp)
    unfold linksOf
    rw [hnone v, hnone v']

/-- **What the nodes of a mesh believe.** In every run in which the sequence numbers of
each originator stay in one window: every entry shows an advertisement of its originator,
none newer than the originator's own; nodes with the same sequence number for an originator
have the same neighbours for it, at the same costs and addresses; and nodes that have
received the last advertisement of every node have the same topology. -/
theorem nodes_agree (events : List FloodEvent) (h : InWindow (Gossip.new.run events).copies) :
    let g := Gossip.new.run events
    (∀ v o info, (g.dbs v).nodes.lookup o = some info →
      ∃ u ∈ g.copies, ∃ w ∈ g.copies, u.originatorNode = o ∧ w.originatorNode = o ∧
        Holds (g.dbs v) u ∧ Holds (g.dbs o) w ∧
        (w.sequenceNumber = u.sequenceNumber ∨ w.isNewerThan u.sequenceNumber = true)) ∧
    (∀ v v' o info info', (g.dbs v).nodes.lookup o = some info →
      (g.dbs v').nodes.lookup o = some info' → info.sequenceNumber = info'.sequenceNumber →
      ∃ u ∈ g.copies, u.originatorNode = o ∧ Holds (g.dbs v) u ∧ Holds (g.dbs v') u) ∧
    ∀ v v', (∀ o, Heard events v o) → (∀ o, Heard events v' o) →
      SameTopology (g.dbs v).nodes (g.dbs v').nodes := by
  choose base len hlen hwindow using h
  have hrank : ∀ u ∈ (Gossip.new.run events).copies, rank base u < 2 ^ 63 := fun u hu =>
    Nat.lt_trans (hwindow u.originatorNode u hu rfl) (hlen u.originatorNode)
  have htold := (told_new base).run events hrank
  refine ⟨fun v o info hinfo => ?_, fun v v' o info info' hinfo hinfo' hseq => ?_,
    fun v v' hv hv' => Told.sameTopology hrank hv hv'⟩
  · obtain ⟨u, hu, rfl, hs, hholds⟩ := htold.holds hinfo
    obtain ⟨own, hown, hle⟩ := htold.own u hu
    obtain ⟨w, hw, hwo, hws, hwholds⟩ := htold.holds hown
    refine ⟨u, hu, w, hw, rfl, hwo, hholds, hwholds, ?_⟩
    rw [← hws, ← hwo] at hle
    rcases Nat.lt_or_eq_of_le (show rank base u ≤ rank base w from hle) with hlt | heq
    · exact .inr ((isNewerThan_iff_rank hwo (hrank w hw) (hrank u hu)).mpr hlt)
    · exact .inl (sequenceNumber_eq_of_rank hwo heq.symm)
  · exact htold.holds_same hinfo hinfo' hseq

/-- Node 1 advertises its links, and later others; nodes 2 and 3 hear the second time what
they missed the first, one of them from the other. -/
def heardOnTheWay : List FloodEvent :=
  [.issue 1 100 [⟨2, 10, none⟩], .receive 2 101 0, .issue 1 110 [⟨2, 10, none⟩, ⟨3, 4, none⟩],
    .receive 2 111 2, .receive 3 112 3, .receive 3 113 0]

/-- Nodes 2 and 3 agree. -/
theorem nodes_agree_sample :
    SameTopology ((Gossip.new.run heardOnTheWay).dbs 2).nodes
      ((Gossip.new.run heardOnTheWay).dbs 3).nodes := by
  have hcopies : ∀ u ∈ (Gossip.new.run heardOnTheWay).copies,
      u.originatorNode = 1 ∧ (u.sequenceNumber - 0).toNat < 3 := by decide +kernel
  obtain ⟨hentries, -, hsame⟩ :=
    nodes_agree heardOnTheWay fun o => ⟨0, 3, by decide, fun u hu _ => (hcopies u hu).2⟩
  have hone : ∀ o own, ((Gossip.new.run heardOnTheWay).dbs o).nodes.lookup o = some own →
      o = 1 := by
    intro o own hown
    obtain ⟨u, hu, -, -, rfl, -⟩ := hentries o o own hown
    exact (hcopies u hu).1
  have hseq : ∀ own, ((Gossip.new.run heardOnTheWay).dbs 1).nodes.lookup 1 = some own →
      own.sequenceNumber = 2 := by decide +kernel
  refine hsame 2 3 (fun o own hown => .inr ?_) fun o own hown => .inr ?_
  · obtain rfl := hone o own hown
    exact ⟨heardOnTheWay.take 3, 111, 2, heardOnTheWay.drop 4, _, rfl, rfl, rfl,
      (hseq own hown).symm, by decide⟩
  · obtain rfl := hone o own hown
    exact ⟨heardOnTheWay.take 4, 112, 3, heardOnTheWay.drop 5, _, rfl, rfl, rfl,
      (hseq own hown).symm, by decide⟩

end MeshCore.Topology
