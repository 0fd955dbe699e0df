import MeshCore.Routing.Tasks
import MeshCore.Topology.Duplicates

/-!
# From session events to the advertised neighbours

The event loop of `mesh-bin/src/main.rs` keeps `connected_neighbors`, the
neighbours it has a session with. At each change it copies the map into a list
and spawns a task (`Routing/Tasks.lean`) that takes the lock of `topology_db`
and calls `update_local_neighbors` with the list. The list is the state of the
sessions when the event was handled. The local entry of the database is the list
of the task that held the lock last, and that need not be the task of the last
event.

`EventLoop` runs the handlers and the tasks, which take the lock in any order
(`EventLoop.Inv`). In every state, the neighbours in the local entry are those
with a session exactly when the events handled after the one whose task held the
lock last have left the set of sessions as they found it
(`advertised_iff`). That is so when the tasks take the lock in the order in
which they were spawned (`advertised_of_fifo`); a disconnect task that overtakes
the connect task before it leaves a dead link (`dead_link_advertised`).

Mirroring notes:
- A socket address is its text, the only thing the handlers use of it.
- The database may have entries at the start: with `--neighbor`, `main` installs
  a local entry before the loop.
- After its locked step a task only writes the routing table and broadcasts, which
  changes neither the database nor the map.
-/

namespace MeshCore.Routing

open MeshCore.Lib
open MeshCore.Topology

/-! ## The event loop -/

/-- The two kinds of `SessionEvent` that change `connected_neighbors`. -/
inductive SessionChange where
  | connected (peer : String) (remoteNodeId : NodeId)
  | disconnected (remoteNodeId : Option NodeId)
  deriving Repr, DecidableEq

/-- `connected_neighbors`. -/
abbrev ConnectedNeighbors := HashMap NodeId String

/-- The list a handler makes of `connected_neighbors`. -/
def neighborInfos (connectedNeighbors : ConnectedNeighbors) : List NeighborInfo :=
  connectedNeighbors.entries.map fun e => { nodeId := e.1, cost := 100, addr := some e.2 }

/-- The handler of an event: `connected_neighbors` after it, and the task it
spawns. -/
def SessionChange.handle (connectedNeighbors : ConnectedNeighbors) :
    SessionChange → ConnectedNeighbors × Option Task
  | .connected peer remoteNodeId =>
    let connectedNeighbors := connectedNeighbors.insert remoteNodeId peer
    (connectedNeighbors, some (.connected (neighborInfos connectedNeighbors)))
  | .disconnected (some nodeId) =>
    let connectedNeighbors := connectedNeighbors.erase nodeId
    (connectedNeighbors, some (.disconnected (neighborInfos connectedNeighbors)))
  | .disconnected none => (connectedNeighbors, none)

/-- The sessions after some events. -/
def sessionsAfter (events : List SessionChange) : ConnectedNeighbors :=
  events.foldl (fun connected e => (e.handle connected).1) ∅

/-- A spawned task, with the number of events handled until then. -/
structure Spawned where
  eventsHandled : Nat
  task : Task

/-- The loop, its tasks that wait for the lock, and the database. -/
structure EventLoop where
  connectedNeighbors : ConnectedNeighbors
  db : TopologyDatabase
  waiting : List Spawned
  /-- The events handled so far. -/
  events : List SessionChange
  /-- How many of them had been handled when the task that held the lock last was
  spawned. -/
  lastLocked : Option Nat

/-- The loop handles an event, or a task takes the lock. -/
inductive LoopStep where
  | handle (event : SessionChange)
  | lock (i now : Nat)

/-- One step. -/
def EventLoop.step (s : EventLoop) : LoopStep → EventLoop
  | .handle event =>
    let (connectedNeighbors, task) := event.handle s.connectedNeighbors
    let events := s.events ++ [event]
    { s with connectedNeighbors, events
             waiting := s.waiting ++ (task.map (Spawned.mk events.length)).toList }
  | .lock i now =>
    match s.waiting[i]? with
    | none => s
    | some t => { s with db := (t.task.locked s.db now).1
                         waiting := s.waiting.eraseIdx i
                         lastLocked := some t.eventsHandled }

/-- The loop when `main` enters it. -/
def EventLoop.start (db : TopologyDatabase) : EventLoop :=
  { connectedNeighbors := ∅, db, waiting := [], events := [], lastLocked := none }

/-- A run. -/
def EventLoop.run (s : EventLoop) (steps : List LoopStep) : EventLoop :=
  steps.foldl EventLoop.step s

/-- The neighbours in the local entry, if there is one. -/
def advertised (db : TopologyDatabase) : HashMap NodeId LinkInfo :=
  match db.nodes.lookup db.localNodeId with
  | some nodeInfo => nodeInfo.neighbors
  | none => ∅

/-- The local entry has exactly the neighbours there is a session with. -/
def EventLoop.Live (s : EventLoop) : Prop :=
  ∀ id, id ∈ advertised s.db ↔ id ∈ s.connectedNeighbors

/-- The events handled after the one whose task held the lock last have left the
set of sessions as they found it. If no task has, the local entry from the start
has the sessions. -/
def EventLoop.Current (db : TopologyDatabase) (s : EventLoop) : Prop :=
  match s.lastLocked with
  | none => ∀ id, id ∈ advertised db ↔ id ∈ sessionsAfter s.events
  | some k => ∀ id, id ∈ sessionsAfter (s.events.take k) ↔ id ∈ sessionsAfter s.events

/-! ## Lists of neighbours -/

theorem mem_neighborMap {now : Nat} {neighbors : List NeighborInfo} {id : NodeId} :
    id ∈ TopologyDatabase.neighborMap now neighbors ↔ ∃ n ∈ neighbors, n.nodeId = id := by
  rw [← AList.lookup_isSome, neighborMap_lookup, Option.isSome_map, List.find?_isSome]
  simp

theorem mem_neighborInfos {connected : ConnectedNeighbors} {id : NodeId} :
    (∃ n ∈ neighborInfos connected, n.nodeId = id) ↔ id ∈ connected := by
  rw [AList.mem_keys]
  unfold neighborInfos AList.keys List.keys
  simp only [List.mem_map]
  constructor
  · rintro ⟨_, ⟨e, he, rfl⟩, rfl⟩
    exact ⟨e, he, rfl⟩
  · rintro ⟨e, he, rfl⟩
    exact ⟨_, ⟨e, he, rfl⟩, rfl⟩

/-- Installing a list makes its nodes the neighbours of the local entry. -/
theorem advertised_updateLocalNeighbors (db : TopologyDatabase) (now : Nat)
    (neighbors : List NeighborInfo) (id : NodeId) :
    id ∈ advertised (db.updateLocalNeighbors now neighbors).2
      ↔ ∃ n ∈ neighbors, n.nodeId = id := by
  obtain ⟨u, db', heq, hu, hlocal, -, hnodes⟩ := updateLocalNeighbors_spec db now neighbors
  rw [heq]
  unfold advertised
  rw [hlocal, hnodes, AList.lookup_insert, hu]
  exact mem_neighborMap

/-! ## The invariant -/

/-- The task installs these sessions. -/
def Task.Installs (task : Task) (sessions : ConnectedNeighbors) : Prop :=
  task = .connected (neighborInfos sessions) ∨ task = .disconnected (neighborInfos sessions)

/-- The locked step of a task of the loop. -/
theorem Task.Installs.locked {task : Task} {sessions : ConnectedNeighbors}
    (h : task.Installs sessions) (db : TopologyDatabase) (now : Nat) (id : NodeId) :
    id ∈ advertised (task.locked db now).1 ↔ id ∈ sessions := by
  have hinstall :
      (task.locked db now).1 = (db.updateLocalNeighbors now (neighborInfos sessions)).2 := by
    rcases h with rfl | rfl
    · rfl
    · rfl
  rw [hinstall, advertised_updateLocalNeighbors, mem_neighborInfos]

/-- What a handler does: the task it spawns installs the sessions it leaves, and
with no task it leaves them as they were. -/
theorem step_handle_cases (s : EventLoop) (event : SessionChange) :
    (∃ task, (s.step (.handle event)).waiting
        = s.waiting ++ [⟨(s.events ++ [event]).length, task⟩] ∧
      task.Installs (s.step (.handle event)).connectedNeighbors) ∨
    ((s.step (.handle event)).waiting = s.waiting ∧
      (s.step (.handle event)).connectedNeighbors = s.connectedNeighbors) := by
  rcases event with ⟨peer, remoteNodeId⟩ | (_ | nodeId)
  · exact Or.inl ⟨_, rfl, Or.inl rfl⟩
  · exact Or.inr ⟨List.append_nil _, rfl⟩
  · exact Or.inl ⟨_, rfl, Or.inr rfl⟩

/-- Each waiting task has the sessions of its time, and so has the local entry. -/
structure EventLoop.Inv (db : TopologyDatabase) (s : EventLoop) : Prop where
  sessions : s.connectedNeighbors = sessionsAfter s.events
  waiting : ∀ t ∈ s.waiting, t.eventsHandled ≤ s.events.length ∧
    t.task.Installs (sessionsAfter (s.events.take t.eventsHandled))
  untouched : s.lastLocked = none → s.db = db
  locked : ∀ k ∈ s.lastLocked, k ≤ s.events.length ∧
    ∀ id, id ∈ advertised s.db ↔ id ∈ sessionsAfter (s.events.take k)

theorem EventLoop.inv_start (db : TopologyDatabase) : (EventLoop.start db).Inv db where
  sessions := rfl
  waiting := fun _ ht => absurd ht List.not_mem_nil
  untouched := fun _ => rfl
  locked := fun _ hk => absurd hk (by simp [EventLoop.start])

theorem sessionsAfter_append (events : List SessionChange) (event : SessionChange) :
    sessionsAfter (events ++ [event]) = (event.handle (sessionsAfter events)).1 := by
  unfold sessionsAfter
  rw [List.foldl_append]
  rfl

variable {db : TopologyDatabase} {s : EventLoop}

theorem EventLoop.Inv.handle (h : s.Inv db) (event : SessionChange) :
    (s.step (.handle event)).Inv db := by
  have hsessions : (s.step (.handle event)).connectedNeighbors
      = sessionsAfter (s.events ++ [event]) := by
    rw [sessionsAfter_append, ← h.sessions]
    rfl
  -- what was recorded about fewer events stays true
  have htake : ∀ {k : Nat}, k ≤ s.events.length →
      k ≤ (s.events ++ [event]).length ∧ (s.events ++ [event]).take k = s.events.take k := by
    intro k hk
    refine ⟨?_, List.take_append_of_le_length hk⟩
    rw [List.length_append]
    omega
  have hold : ∀ t ∈ s.waiting, t.eventsHandled ≤ (s.events ++ [event]).length ∧
      t.task.Installs (sessionsAfter ((s.events ++ [event]).take t.eventsHandled)) := by
    intro t ht
    obtain ⟨hle, htask⟩ := h.waiting t ht
    obtain ⟨hle', heq⟩ := htake hle
    exact ⟨hle', heq.symm ▸ htask⟩
  refine ⟨hsessions, ?_, h.untouched, fun k hk => ?_⟩
  · rcases step_handle_cases s event with ⟨task, hwaiting, htask⟩ | ⟨hwaiting, -⟩
    · intro t ht
      rw [hwaiting] at ht
      rcases List.mem_append.mp ht with hin | hnew
      · exact hold t hin
      · rw [List.mem_singleton.mp hnew]
        refine ⟨Nat.le_refl _, ?_⟩
        show task.Installs (sessionsAfter ((s.events ++ [event]).take _))
        rw [List.take_length, ← hsessions]
        exact htask
    · rw [hwaiting]
      exact hold
  · obtain ⟨hle, hdb⟩ := h.locked k hk
    obtain ⟨hle', heq⟩ := htake hle
    refine ⟨hle', fun id => ?_⟩
    show id ∈ advertised s.db ↔ id ∈ sessionsAfter ((s.events ++ [event]).take k)
    rw [heq]
    exact hdb id

theorem EventLoop.Inv.lock (h : s.Inv db) (i now : Nat) : (s.step (.lock i now)).Inv db := by
  unfold EventLoop.step
  dsimp only
  cases hi : s.waiting[i]? with
  | none => exact h
  | some t =>
    obtain ⟨hle, htask⟩ := h.waiting t (List.mem_of_getElem? hi)
    refine ⟨h.sessions, fun t' ht' => ?_, fun hnone => absurd hnone (by simp), fun k hk => ?_⟩
    · exact h.waiting t' (List.mem_of_mem_eraseIdx ht')
    · obtain rfl := Option.some.inj hk
      exact ⟨hle, htask.locked s.db now⟩

theorem EventLoop.Inv.step (h : s.Inv db) (a : LoopStep) : (s.step a).Inv db := by
  cases a with
  | handle event => exact h.handle event
  | lock i now => exact h.lock i now

theorem EventLoop.inv_run (db : TopologyDatabase) (steps : List LoopStep) :
    ((EventLoop.start db).run steps).Inv db :=
  List.foldlRecOn steps EventLoop.step (EventLoop.inv_start db) fun _ h a _ => h.step a

/-- In a state of a run, the local entry has the sessions exactly when its list is
current. -/
theorem EventLoop.Inv.live_iff (h : s.Inv db) : s.Live ↔ s.Current db := by
  unfold EventLoop.Live EventLoop.Current
  rw [h.sessions]
  cases hlast : s.lastLocked with
  | none => rw [h.untouched hlast]
  | some k =>
    obtain ⟨-, hdb⟩ := h.locked k hlast
    exact forall_congr' fun id => iff_congr (hdb id) Iff.rfl

/-! ## Runs -/

/-- **When the advertised neighbours are live.** Whatever events the loop handles
and in whatever order the tasks take the lock, the neighbours in the local entry
are those with a session exactly when the events handled after the one whose task
held the lock last have left the set of sessions as they found it. -/
theorem advertised_iff (db : TopologyDatabase) (steps : List LoopStep) :
    ((EventLoop.start db).run steps).Live ↔ ((EventLoop.start db).run steps).Current db :=
  (EventLoop.inv_run db steps).live_iff

/-- Node 2 connects to node 1 and disconnects. The task of the disconnect takes
the lock first, and the one of the connect leaves the dead link in the entry. -/
theorem dead_link_advertised :
    ¬ ∀ (db : TopologyDatabase) (steps : List LoopStep),
      ((EventLoop.start db).run steps).waiting = [] → ((EventLoop.start db).run steps).Live := by
  intro h
  have hlive := h (TopologyDatabase.new 1)
    [.handle (.connected "10.0.0.2:9000" 2), .handle (.disconnected (some 2)), .lock 1 0, .lock 0 0]
    (List.isEmpty_iff.mp (by decide +kernel)) 2
  revert hlive
  decide +kernel

/-! ## Tasks in the order of their events -/

/-- The latest of the tasks that have held the lock or wait for it was spawned
with the sessions of now. -/
def EventLoop.UpToDate (s : EventLoop) : Prop :=
  ∀ k, (s.lastLocked.toList ++ s.waiting.map Spawned.eventsHandled).getLast? = some k →
    sessionsAfter (s.events.take k) = sessionsAfter s.events

theorem EventLoop.UpToDate.handle (h : s.UpToDate) (hinv : s.Inv db) (event : SessionChange) :
    (s.step (.handle event)).UpToDate := by
  intro k hk
  show sessionsAfter ((s.events ++ [event]).take k) = sessionsAfter (s.events ++ [event])
  rcases step_handle_cases s event with ⟨task, hwaiting, -⟩ | ⟨hwaiting, hsame⟩
  · -- the new task is the latest
    rw [hwaiting, List.map_append, ← List.append_assoc] at hk
    have hlast : (s.events ++ [event]).length = k :=
      Option.some.inj (List.getLast?_concat.symm.trans hk)
    rw [← hlast, List.take_length]
  · rw [hwaiting] at hk
    have hle : k ≤ s.events.length := by
      rcases List.mem_append.mp (List.mem_of_getLast? hk) with hlocked | hmem
      · exact (hinv.locked k (Option.mem_toList.mp hlocked)).1
      · obtain ⟨t, ht, rfl⟩ := List.mem_map.mp hmem
        exact (hinv.waiting t ht).1
    rw [List.take_append_of_le_length hle, h k hk, sessionsAfter_append, ← hinv.sessions]
    exact hsame.symm

theorem EventLoop.UpToDate.lock (h : s.UpToDate) (now : Nat) :
    (s.step (.lock 0 now)).UpToDate := by
  unfold EventLoop.step
  dsimp only
  cases hw : s.waiting with
  | nil => exact h
  | cons t rest =>
    intro k hk
    refine h k ?_
    rw [hw, List.map_cons]
    have hk' : (t.eventsHandled :: rest.map Spawned.eventsHandled).getLast? = some k := hk
    rw [List.getLast?_append_cons]
    exact hk'

/-- When the tasks take the lock in the order in which they were spawned and all
have finished, at least one, the neighbours in the local entry are those with a
session. -/
theorem advertised_of_fifo (db : TopologyDatabase) (steps : List LoopStep)
    (hfifo : ∀ i now, .lock i now ∈ steps → i = 0)
    (hdone : ((EventLoop.start db).run steps).waiting = [])
    (hlocked : ((EventLoop.start db).run steps).lastLocked ≠ none) :
    ((EventLoop.start db).run steps).Live := by
  have hrun : ((EventLoop.start db).run steps).Inv db ∧
      ((EventLoop.start db).run steps).UpToDate := by
    have hstart : (EventLoop.start db).UpToDate := fun k hk => absurd hk (by simp [EventLoop.start])
    refine List.foldlRecOn (motive := fun s => s.Inv db ∧ s.UpToDate) steps EventLoop.step
      ⟨EventLoop.inv_start db, hstart⟩ ?_
    rintro s ⟨hinv, hup⟩ a ha
    refine ⟨hinv.step a, ?_⟩
    cases a with
    | handle event => exact hup.handle hinv event
    | lock i now =>
      rw [hfifo i now ha]
      exact hup.lock now
  obtain ⟨hinv, hup⟩ := hrun
  rw [hinv.live_iff]
  unfold EventLoop.Current
  cases hlast : ((EventLoop.start db).run steps).lastLocked with
  | none => exact absurd hlast hlocked
  | some k =>
    intro id
    have hk := hup k (by rw [hlast, hdone]; rfl)
    show id ∈ sessionsAfter _ ↔ _
    rw [hk]

end MeshCore.Routing
