import MeshCore.Topology.Rejoin

/-!
# Re-advertising and age

A node passes on what it knows of others with `get_all_topology_updates`. The
updates that returns are built from the entries of its database, and
`TopologyUpdate::new` stamps them with the time of the call, although the stamp is
to say when the update was created. So the age check of the receiver counts from
the last re-advertisement.

`Exchange` runs any number of nodes with one clock, and keeps beside each copy and
each entry when the update behind it was created by its originator. For a copy that
still carries that time the check is enough: every update is accepted within
`MAX_TOPOLOGY_AGE_SECS` of its creation in a run in which no copy stamped later is
news where it arrives (`accepted_in_time`). One that is can arrive too late: it need
only wait for as long as the check allows.

Mirroring notes:
- Copies may be delivered to any node, at any time and any number of times, which
  takes in what the nodes forward.
-/

namespace MeshCore.Topology

open MeshCore.Lib

/-- `get_all_topology_updates`. -/
def TopologyDatabase.getAllTopologyUpdates (db : TopologyDatabase) (now : Nat) :
    List TopologyUpdate :=
  (db.nodes.entries.filter fun e => e.1 ≠ db.localNodeId).map fun e =>
    { originatorNode := e.1, sequenceNumber := e.2.sequenceNumber
      neighbors := e.2.neighbors.entries.map fun l =>
        { nodeId := l.1, cost := l.2.cost, addr := l.2.addr }
      ttl := defaultTopologyTtl - 1, timestamp := now }

/-- A copy of an update, with the time its originator created it. -/
structure Copy where
  update : TopologyUpdate
  created : Nat

/-- An update with this number was created, or accepted, at this time. -/
structure Stamped where
  originator : NodeId
  sequenceNumber : UInt64
  created : Nat
  deriving DecidableEq

/-- All nodes, with one clock. `created` says of each entry of each node when the
update behind it was created. -/
structure Exchange where
  clock : Nat
  dbs : NodeId → TopologyDatabase
  created : NodeId → NodeId → Nat
  copies : List Copy
  issued : List Stamped
  accepted : List (Stamped × Nat)

/-- What can happen. -/
inductive ExchangeEvent where
  | tick (secs : Nat)
  | issue (node : NodeId) (neighbors : List NeighborInfo)
  | readvertise (node : NodeId)
  | deliver (node : NodeId) (copy : Nat)
  | cleanup (node : NodeId)

namespace Exchange

/-- New nodes, at some time. -/
def new (clock : Nat) : Exchange :=
  { clock, dbs := .new, created := fun _ _ => 0, copies := [], issued := [], accepted := [] }

/-- What the update behind a copy is. -/
def stampOf (copy : Copy) : Stamped :=
  { originator := copy.update.originatorNode, sequenceNumber := copy.update.sequenceNumber
    created := copy.created }

/-- A copy arrives at a node. -/
def deliver (x : Exchange) (node : NodeId) (copy : Copy) : Exchange :=
  let (accepted, db) := (x.dbs node).processTopologyUpdate x.clock copy.update
  let x := { x with dbs := Function.update x.dbs node db }
  if accepted then
    { x with
      created := fun v o =>
        if v = node ∧ o = copy.update.originatorNode then copy.created else x.created v o
      accepted := x.accepted ++ [(stampOf copy, x.clock)] }
  else x

/-- One event. -/
def step (x : Exchange) : ExchangeEvent → Exchange
  | .tick secs => { x with clock := x.clock + secs }
  | .issue node neighbors =>
    let (update, db) := (x.dbs node).updateLocalNeighbors x.clock neighbors
    let copy : Copy := { update, created := x.clock }
    { x with
      dbs := Function.update x.dbs node db
      created := fun v o => if v = node ∧ o = node then x.clock else x.created v o
      copies := x.copies ++ [copy]
      issued := x.issued ++ [stampOf copy] }
  | .readvertise node =>
    { x with copies := x.copies ++ ((x.dbs node).getAllTopologyUpdates x.clock).map fun update =>
        { update, created := x.created node update.originatorNode } }
  | .deliver node copy =>
    match x.copies[copy]? with
    | some copy => x.deliver node copy
    | none => x
  | .cleanup node =>
    { x with dbs := Function.update x.dbs node ((x.dbs node).cleanupOldEntries x.clock) }

/-- Every update was accepted in time. -/
def InTime (x : Exchange) : Prop :=
  ∀ a ∈ x.accepted, a.2 - a.1.created ≤ maxTopologyAgeSecs

instance (x : Exchange) : Decidable x.InTime :=
  inferInstanceAs (Decidable (∀ a ∈ x.accepted, _))

/-- An update is news to a node: it is newer than the entry there is. -/
def News (x : Exchange) (node : NodeId) (update : TopologyUpdate) : Prop :=
  ∀ entry, (x.dbs node).nodes.lookup update.originatorNode = some entry →
    update.isNewerThan entry.sequenceNumber = true

instance (x : Exchange) (node : NodeId) (update : TopologyUpdate) :
    Decidable (x.News node update) :=
  inferInstanceAs (Decidable (∀ entry ∈ (x.dbs node).nodes.lookup update.originatorNode, _))

/-- No copy arrives as news that was stamped later than its update was created. -/
def NoRestampedNews (x : Exchange) : ExchangeEvent → Prop
  | .deliver node copy =>
    ∀ c, x.copies[copy]? = some c → c.created < c.update.timestamp → ¬ x.News node c.update
  | .tick _ | .issue .. | .readvertise _ | .cleanup _ => True

instance (x : Exchange) : (event : ExchangeEvent) → Decidable (x.NoRestampedNews event)
  | .deliver node copy => inferInstanceAs (Decidable (∀ c ∈ x.copies[copy]?,
      c.created < c.update.timestamp → ¬ x.News node c.update))
  | .tick _ => isTrue trivial
  | .issue .. => isTrue trivial
  | .readvertise _ => isTrue trivial
  | .cleanup _ => isTrue trivial

end Exchange

/-! ## Where the times come from -/

/-- Stamps are not before the creation nor after the clock, and every copy, entry and
acceptance is of an update that was issued at the time it says. -/
structure Timed (x : Exchange) : Prop where
  localNodeId : ∀ v, (x.dbs v).localNodeId = v
  stamped : ∀ c ∈ x.copies, c.created ≤ c.update.timestamp ∧ c.update.timestamp ≤ x.clock
  copies : ∀ c ∈ x.copies, Exchange.stampOf c ∈ x.issued
  entries : ∀ v o entry, (x.dbs v).nodes.lookup o = some entry → x.created v o ≤ x.clock ∧
    { originator := o, sequenceNumber := entry.sequenceNumber, created := x.created v o } ∈ x.issued
  accepted : ∀ a ∈ x.accepted, a.1 ∈ x.issued

theorem timed_new (clock : Nat) : Timed (.new clock) where
  localNodeId := fun _ => rfl
  stamped := fun _ h => absurd h (List.not_mem_nil)
  copies := fun _ h => absurd h (List.not_mem_nil)
  entries := fun _ _ _ h => absurd h (by simp [Exchange.new, TopologyDatabase.new])
  accepted := fun _ h => absurd h (List.not_mem_nil)

/-- What a re-advertised update is made of. -/
theorem mem_getAllTopologyUpdates {db : TopologyDatabase} {now : Nat} {u : TopologyUpdate}
    (h : u ∈ db.getAllTopologyUpdates now) :
    u.timestamp = now ∧ ∃ entry, db.nodes.lookup u.originatorNode = some entry ∧
      u.sequenceNumber = entry.sequenceNumber := by
  unfold TopologyDatabase.getAllTopologyUpdates at h
  obtain ⟨⟨o, entry⟩, he, rfl⟩ := List.mem_map.mp h
  exact ⟨rfl, entry, HashMap.mem_entries_iff.mp (List.mem_of_mem_filter he), rfl⟩

/-- A delivery writes the entry of a copy that is fresh and news, and changes nothing
otherwise. -/
theorem deliver_cases (x : Exchange) (node : NodeId) (copy : Copy) :
    (x.deliver node copy = x ∧ ¬ (x.clock - copy.update.timestamp ≤ maxTopologyAgeSecs ∧
      x.News node copy.update)) ∨
    (x.clock - copy.update.timestamp ≤ maxTopologyAgeSecs ∧ x.News node copy.update ∧
      ∃ db, db.localNodeId = (x.dbs node).localNodeId ∧
        db.nodes = (x.dbs node).nodes.insert copy.update.originatorNode
          (entryOf x.clock copy.update) ∧
        x.deliver node copy =
          { x with
            dbs := Function.update x.dbs node db
            created := fun v o =>
              if v = node ∧ o = copy.update.originatorNode then copy.created else x.created v o
            accepted := x.accepted ++ [(Exchange.stampOf copy, x.clock)] }) := by
  have hsame : ∀ b, (x.dbs node).processTopologyUpdate x.clock copy.update = (false, b) →
      b = x.dbs node → x.deliver node copy = x := by
    intro b hb hdb
    unfold Exchange.deliver
    rw [hb, hdb]
    simp
  by_cases hage : x.clock - copy.update.timestamp ≤ maxTopologyAgeSecs
  · rcases process_fresh (x.dbs node) hage with ⟨entry, hl, hold, heq⟩ | ⟨hnew, heq⟩
    · refine .inl ⟨hsame _ heq rfl, fun h => ?_⟩
      exact absurd (hold.symm.trans (h.2 entry hl)) (by simp)
    · refine .inr ⟨hage, hnew, TopologyDatabase.computeRoutes { x.dbs node with
        nodes := (x.dbs node).nodes.insert copy.update.originatorNode
          (entryOf x.clock copy.update) }, rfl, rfl, ?_⟩
      unfold Exchange.deliver
      rw [heq]
      exact if_pos rfl
  · exact .inl ⟨hsame _ (process_old _ (Nat.lt_of_not_le hage)) rfl, fun h => hage h.1⟩

/-- A node map that was written in one place. -/
theorem Timed.write {x : Exchange} (h : Timed x) {node key : NodeId} {db : TopologyDatabase}
    {entry : NodeInfo} (hdb : db.nodes = (x.dbs node).nodes.insert key entry) {created : Nat}
    (hcreated : created ≤ x.clock) {issued : List Stamped} (hsub : x.issued ⊆ issued)
    (hissued : { originator := key, sequenceNumber := entry.sequenceNumber, created } ∈ issued)
    (v o : NodeId) (found : NodeInfo)
    (hfound : ((Function.update x.dbs node db) v).nodes.lookup o = some found) :
    (if v = node ∧ o = key then created else x.created v o) ≤ x.clock ∧
      { originator := o, sequenceNumber := found.sequenceNumber
        created := if v = node ∧ o = key then created else x.created v o } ∈ issued := by
  rw [lookup_update_dbs hdb] at hfound
  split at hfound
  next hvo =>
    rw [if_pos hvo, ← Option.some.inj hfound, hvo.2]
    exact ⟨hcreated, hissued⟩
  next hvo =>
    rw [if_neg hvo]
    exact ⟨(h.entries v o found hfound).1, hsub (h.entries v o found hfound).2⟩

theorem Timed.deliver {x : Exchange} (h : Timed x) (node : NodeId) {copy : Copy}
    (hcopy : copy ∈ x.copies) : Timed (x.deliver node copy) := by
  rcases deliver_cases x node copy with ⟨heq, -⟩ | ⟨-, -, db, hid, hnodes, heq⟩
  · rw [heq]
    exact h
  · have hissued := h.copies copy hcopy
    obtain ⟨hcreated, hclock⟩ := h.stamped copy hcopy
    rw [heq]
    refine ⟨localNodeId_update h.localNodeId hid, h.stamped, h.copies,
      h.write hnodes (Nat.le_trans hcreated hclock) (fun _ hs => hs) hissued, fun a ha => ?_⟩
    rcases List.mem_append.mp ha with hold | hnew
    · exact h.accepted a hold
    · rw [List.mem_singleton.mp hnew]
      exact hissued

theorem Timed.issue {x : Exchange} (h : Timed x) (node : NodeId)
    (neighbors : List NeighborInfo) : Timed (x.step (.issue node neighbors)) := by
  obtain ⟨u, db, heq, hu, hid, -, hnodes⟩ :=
    updateLocalNeighbors_spec (x.dbs node) x.clock neighbors
  rw [h.localNodeId node] at hnodes
  have horig : u.originatorNode = node := by rw [hu]; exact h.localNodeId node
  have hstamp : u.timestamp = x.clock := by rw [hu]
  unfold Exchange.step
  dsimp only
  rw [heq]
  have hnew : ∀ c, c ∈ x.copies ++ [({ update := u, created := x.clock } : Copy)] →
      c ∈ x.copies ∨ c = { update := u, created := x.clock } := by
    intro c hc
    exact (List.mem_append.mp hc).imp id List.mem_singleton.mp
  refine ⟨localNodeId_update h.localNodeId hid, fun c hc => ?_, fun c hc => ?_, ?_,
    fun a ha => List.mem_append_left _ (h.accepted a ha)⟩
  · rcases hnew c hc with hold | rfl
    · exact h.stamped c hold
    · exact ⟨Nat.le_of_eq hstamp.symm, Nat.le_of_eq hstamp⟩
  · rcases hnew c hc with hold | rfl
    · exact List.mem_append_left _ (h.copies c hold)
    · exact List.mem_append_right _ (List.mem_singleton_self _)
  · refine h.write hnodes (Nat.le_refl _) (List.subset_append_left _ _) ?_
    refine List.mem_append_right _ (List.mem_singleton.mpr ?_)
    unfold Exchange.stampOf
    rw [entryOf_sequenceNumber, horig]

theorem Timed.readvertise {x : Exchange} (h : Timed x) (node : NodeId) :
    Timed (x.step (.readvertise node)) := by
  have hnew : ∀ c, c ∈ x.copies ++ ((x.dbs node).getAllTopologyUpdates x.clock).map
      (fun update => ({ update, created := x.created node update.originatorNode } : Copy)) →
      c ∈ x.copies ∨ (c.update.timestamp = x.clock ∧ c.created ≤ x.clock ∧
        Exchange.stampOf c ∈ x.issued) := by
    intro c hc
    refine (List.mem_append.mp hc).imp id fun hmap => ?_
    obtain ⟨u, hu, rfl⟩ := List.mem_map.mp hmap
    obtain ⟨hstamp, entry, hentry, hseq⟩ := mem_getAllTopologyUpdates hu
    obtain ⟨hle, hissued⟩ := h.entries node _ entry hentry
    unfold Exchange.stampOf
    exact ⟨hstamp, hle, hseq ▸ hissued⟩
  refine ⟨h.localNodeId, fun c hc => ?_, fun c hc => ?_, h.entries, h.accepted⟩
  · rcases hnew c hc with hold | ⟨hstamp, hle, -⟩
    · exact h.stamped c hold
    · exact ⟨hstamp ▸ hle, Nat.le_of_eq hstamp⟩
  · rcases hnew c hc with hold | ⟨-, -, hissued⟩
    · exact h.copies c hold
    · exact hissued

theorem Timed.cleanup {x : Exchange} (h : Timed x) (node : NodeId) :
    Timed (x.step (.cleanup node)) := by
  have hid : ((x.dbs node).cleanupOldEntries x.clock).localNodeId = (x.dbs node).localNodeId :=
    apply_localNodeId (x.dbs node) (.cleanupOldEntries x.clock)
  refine ⟨localNodeId_update h.localNodeId hid, h.stamped, h.copies, fun v o entry hentry => ?_,
    h.accepted⟩
  refine h.entries v o entry ?_
  have hfound : AList.lookup o (Function.update x.dbs node
      ((x.dbs node).cleanupOldEntries x.clock) v).nodes = some entry := hentry
  by_cases hv : v = node
  · subst hv
    rw [Function.update_self] at hfound
    exact lookup_of_cleanup hfound
  · rw [Function.update_of_ne hv] at hfound
    exact hfound

/-- **One event** keeps the times right. -/
theorem Timed.step {x : Exchange} (h : Timed x) (event : ExchangeEvent) : Timed (x.step event) := by
  cases event with
  | tick secs =>
    refine ⟨h.localNodeId, fun c hc => ?_, h.copies, fun v o entry hentry => ?_, h.accepted⟩
    · exact ⟨(h.stamped c hc).1, Nat.le_add_right_of_le (h.stamped c hc).2⟩
    · exact ⟨Nat.le_add_right_of_le (h.entries v o entry hentry).1, (h.entries v o entry hentry).2⟩
  | issue node neighbors => exact h.issue node neighbors
  | readvertise node => exact h.readvertise node
  | deliver node copy =>
    unfold Exchange.step
    dsimp only
    split
    next c hget => exact h.deliver node (List.mem_of_getElem? hget)
    next => exact h
  | cleanup node => exact h.cleanup node

/-! ## Runs -/

/-- A copy that carries the time of its creation is accepted in time, or not at all. -/
theorem deliver_inTime {x : Exchange} (hin : x.InTime) (node : NodeId) {copy : Copy}
    (hold : copy.created < copy.update.timestamp → ¬ x.News node copy.update) :
    (x.deliver node copy).InTime := by
  rcases deliver_cases x node copy with ⟨heq, -⟩ | ⟨hfresh, hnews, db, -, -, heq⟩
  · rw [heq]
    exact hin
  · have hstamp : copy.update.timestamp ≤ copy.created :=
      Nat.le_of_not_lt fun hlt => hold hlt hnews
    rw [heq]
    intro a ha
    rcases List.mem_append.mp ha with hbefore | hnew
    · exact hin a hbefore
    · rw [List.mem_singleton.mp hnew]
      exact Nat.le_trans (Nat.sub_le_sub_left hstamp x.clock) hfresh

/-- **One event** keeps everything in time, if it does not bring a copy that was
stamped again as news. -/
theorem step_inTime {x : Exchange} (hin : x.InTime) {event : ExchangeEvent}
    (hevent : x.NoRestampedNews event) : (x.step event).InTime := by
  cases event with
  | tick secs => exact hin
  | issue node neighbors => exact hin
  | readvertise node => exact hin
  | cleanup node => exact hin
  | deliver node copy =>
    unfold Exchange.step
    dsimp only
    cases hget : x.copies[copy]? with
    | none => exact hin
    | some c => exact deliver_inTime hin node (hevent c hget)

/-- Everything accepted was issued at the time it says. -/
theorem timed_run (clock : Nat) (events : List ExchangeEvent) :
    Timed (events.foldl Exchange.step (.new clock)) :=
  List.foldlRecOn events Exchange.step (timed_new clock) fun _ h event _ => h.step event

/-- A copy that was stamped again and is news can wait until the age check just lets
it through, and is then accepted too late. -/
theorem restamped_late {x : Exchange} {node : NodeId} {i : Nat} {c : Copy}
    (hget : x.copies[i]? = some c) (hstamp : c.created < c.update.timestamp)
    (hnews : x.News node c.update) (hclock : x.clock ≤ c.update.timestamp + maxTopologyAgeSecs) :
    ∃ secs, ¬ ((x.step (.tick secs)).step (.deliver node i)).InTime := by
  obtain ⟨wait, hwait⟩ := Nat.exists_eq_add_of_le hclock
  refine ⟨wait, fun hin => ?_⟩
  have hdeliver : (x.step (.tick wait)).step (.deliver node i)
      = (x.step (.tick wait)).deliver node c := by
    unfold Exchange.step
    dsimp only
    rw [hget]
  have hage : (x.step (.tick wait)).clock - c.update.timestamp ≤ maxTopologyAgeSecs := by
    show x.clock + wait - c.update.timestamp ≤ maxTopologyAgeSecs
    rw [← hwait, Nat.add_sub_cancel_left]
  rw [hdeliver] at hin
  rcases deliver_cases (x.step (.tick wait)) node c with ⟨-, hnot⟩ | ⟨-, -, db, -, -, heq⟩
  · exact hnot ⟨hage, hnews⟩
  · rw [heq] at hin
    have hlate := hin (Exchange.stampOf c, x.clock + wait)
      (List.mem_append_right _ (List.mem_singleton_self _))
    have hcreated : (Exchange.stampOf c).created = c.created := rfl
    dsimp only at hlate
    rw [← hwait, hcreated] at hlate
    omega

/-- **Re-advertised updates are accepted in time where no copy stamped again is
news.** In a run in which each copy that was stamped later than its update was
created finds an entry as new where it arrives, every update was accepted within
`MAX_TOPOLOGY_AGE_SECS` of its creation, in every state of the run. Everything
accepted was issued by its originator at the time it is said to be created.

Nothing less is enough for all that may follow: from any state of any run, a copy
that was stamped again, is news to some node and has not outlived its stamp is
accepted too late there, if it arrives when its stamp is just young enough. -/
theorem accepted_in_time (clock : Nat) (events : List ExchangeEvent) :
    (Along Exchange.step Exchange.NoRestampedNews (.new clock) events →
      ∀ done, done <+: events → (done.foldl Exchange.step (.new clock)).InTime) ∧
    (∀ a ∈ (events.foldl Exchange.step (.new clock)).accepted,
      a.1 ∈ (events.foldl Exchange.step (.new clock)).issued) ∧
    ∀ (node : NodeId) (i : Nat) (c : Copy),
      (events.foldl Exchange.step (.new clock)).copies[i]? = some c →
      c.created < c.update.timestamp →
      (events.foldl Exchange.step (.new clock)).News node c.update →
      (events.foldl Exchange.step (.new clock)).clock
        ≤ c.update.timestamp + maxTopologyAgeSecs →
      ∃ secs, ¬ ((events ++ [ExchangeEvent.tick secs, .deliver node i]).foldl Exchange.step
        (.new clock)).InTime := by
  refine ⟨fun hevents done hdone => ?_, (timed_run clock events).accepted, ?_⟩
  · obtain ⟨rest, rfl⟩ := hdone
    exact (along_append.mp hevents).1.inv (I := Exchange.InTime)
      (fun _ _ hin hevent => step_inTime hin hevent) fun a ha => absurd ha (List.not_mem_nil)
  · intro node i c hget hstamp hnews hclock
    obtain ⟨secs, hlate⟩ := restamped_late hget hstamp hnews hclock
    refine ⟨secs, ?_⟩
    rw [List.foldl_append]
    exact hlate

/-- Node 3 has heard of node 1's update from node 1, and refuses the copy that node 2
stamped again. -/
theorem accepted_in_time_known :
    Exchange.InTime (([.issue 1 [], .deliver 2 0, .deliver 3 0, .tick 290, .readvertise 2,
      .tick 60, .deliver 3 1] : List ExchangeEvent).foldl Exchange.step (.new 1000)) :=
  (accepted_in_time 1000 _).1 (by decide +kernel) _ List.prefix_rfl

/-- Node 2 re-advertises what it heard of node 1 290 seconds ago, and node 3 accepts
that a minute later. -/
theorem accepted_late :
    ¬ Exchange.InTime (([.issue 1 [], .deliver 2 0, .tick 290, .readvertise 2, .tick 60,
      .deliver 3 1] : List ExchangeEvent).foldl Exchange.step (.new 1000)) := by
  decide +kernel

end MeshCore.Topology
