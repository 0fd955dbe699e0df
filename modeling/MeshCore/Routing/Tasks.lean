import MeshCore.Routing.Table
import MeshCore.Topology.Sync
import MeshCore.Lib.Runs

/-!
# Topology changes on their way to the routing table

Each session event and each received update starts a task in
`mesh-bin/src/main.rs`. The task takes the write lock of `topology_db`, changes
the database, clones its routes, releases the lock, and then runs
`update_routes_from_topology` on the clone: one `retain`, one `insert` per
destination, and the new epoch. Nothing keeps the tasks' writes apart or in the
order of their locked steps.

`Handlers` is the state of all tasks. When every task that clears the table does
so after the writes of all tasks that held the lock before it, the table at rest
is the one the database describes (`table_follows_database`). Otherwise it can
be left with the routes of an older database (`table_left_stale`).

Mirroring notes:
- The map a task iterates over may have any order, so a write step names the
  entry that is inserted next.
- The connect task also reads the advertisements to send to the new neighbour;
  that changes neither the database nor the table.
-/

namespace MeshCore.Routing

open MeshCore.Lib
open MeshCore.Topology

/-! ## The tasks -/

/-- The tasks `main` spawns, with what they captured. -/
inductive Task where
  | connected (neighbors : List NeighborInfo)
  | disconnected (neighbors : List NeighborInfo)
  | receivedUpdate (update : TopologyUpdate)

/-- The part of a task under the database lock: the database after it, and the
clone of the routes if the task goes on to the table. -/
def Task.locked (db : TopologyDatabase) (now : Nat) :
    Task → TopologyDatabase × Option (HashMap NodeId ComputedRoute)
  | .connected neighbors =>
    let (_, db) := db.updateLocalNeighbors now neighbors
    (db, some db.routes)
  | .disconnected neighbors =>
    let (_, db) := db.updateLocalNeighbors now neighbors
    (db, some db.routes)
  | .receivedUpdate update =>
    let (accepted, db) := db.processTopologyUpdate now update
    -- an old or duplicate update ends the task
    (db, if accepted then some db.routes else none)

/-- A task inside `update_routes_from_topology`. -/
structure Writer where
  /-- The argument `computed_routes`. -/
  computed : HashMap NodeId ComputedRoute
  /-- Whether the table has been cleared. -/
  retained : Bool
  /-- The entries not inserted yet. -/
  left : List (Sigma fun _ : NodeId => ComputedRoute)

/-- A task that has not written yet. -/
def Writer.start (computed : HashMap NodeId ComputedRoute) : Writer :=
  { computed, retained := false, left := computed.entries }

/-- The next write of a task, `j` being the entry its iteration gives next: the
table after it, and the task unless this was its last step. -/
def Writer.write (w : Writer) (table : RoutingTable) (j : Nat) : RoutingTable × Option Writer :=
  if w.retained = false then (table.retainLocal, some { w with retained := true })
  else
    match w.left[j]? with
    | some e => (table.insertRoute e.1 e.2, some { w with left := w.left.eraseIdx j })
    | none => if w.left = [] then (table.bumpEpoch, none) else (table, some w)

/-- A task that nothing interrupts, for so many writes. -/
def Writer.runAlone : Nat → Writer → RoutingTable → RoutingTable × Option Writer
  | 0, w, table => (table, some w)
  | n + 1, w, table =>
    match w.write table 0 with
    | (table, some w) => w.runAlone n table
    | (table, none) => (table, none)

/-- The writes of a task, one after the other, are `update_routes_from_topology`. -/
theorem runAlone_start (computed : HashMap NodeId ComputedRoute) (table : RoutingTable) :
    (Writer.start computed).runAlone (computed.entries.length + 2) table
      = (table.updateRoutesFromTopology computed, none) := by
  have hinserts : ∀ (left : List (Sigma fun _ : NodeId => ComputedRoute)) (table : RoutingTable),
      Writer.runAlone (left.length + 1) { computed, retained := true, left } table
        = ((left.foldl (fun t e => t.insertRoute e.1 e.2) table).bumpEpoch, none) := by
    intro left
    induction left with
    | nil => exact fun _ => rfl
    | cons e left ih => exact fun table => ih (table.insertRoute e.1 e.2)
  exact hinserts computed.entries table.retainLocal

/-- All tasks of a node with what they share. -/
structure Handlers where
  db : TopologyDatabase
  table : RoutingTable
  /-- Tasks before their locked step. -/
  waiting : List Task
  /-- Tasks after it, in the order in which they held the lock. -/
  writers : List Writer

/-- A step of one task. -/
inductive TaskStep where
  | lock (i : Nat) (now : Nat)
  | write (i j : Nat)

/-- One step. -/
def Handlers.step (s : Handlers) : TaskStep → Handlers
  | .lock i now =>
    match s.waiting[i]? with
    | none => s
    | some task =>
      let (db, routes) := task.locked s.db now
      { s with db, waiting := s.waiting.eraseIdx i
               writers := s.writers ++ (routes.map Writer.start).toList }
  | .write i j =>
    match s.writers[i]? with
    | none => s
    | some w =>
      let (table, w') := w.write s.table j
      { s with table, writers := s.writers.take i ++ w'.toList ++ s.writers.drop (i + 1) }

/-- A node that has just started, with the tasks it is going to run. -/
def Handlers.new (localNodeId : NodeId) (hash : UInt64 → UInt64 → UInt64 → UInt64)
    (tasks : List Task) : Handlers :=
  { db := TopologyDatabase.new localNodeId, table := RoutingTable.new localNodeId hash
    waiting := tasks, writers := [] }

/-- Every task has finished. -/
def Handlers.Done (s : Handlers) : Prop := s.waiting = [] ∧ s.writers = []

/-- The hop set of a computed route. -/
def hopSetOf (r : ComputedRoute) : HopSet := HopSet.single (NextHop.new r.nextHop r.totalCost)

/-- The table has exactly the destinations of the routes, each with the route's
next hop and cost. -/
def RoutingTable.Follows (table : RoutingTable) (routes : HashMap NodeId ComputedRoute) : Prop :=
  ∀ dst, table.routes.lookup dst = (routes.lookup dst).map hopSetOf

/-- The task has no more route to write. -/
def Writer.Written (w : Writer) : Prop := w.retained = true ∧ w.left = []

/-- The step clears the table only after the writes of all tasks that held the
lock before. -/
def TaskStep.InLockOrder (s : Handlers) : TaskStep → Prop
  | .lock _ _ => True
  | .write i _ => ∀ w, s.writers[i]? = some w → w.retained = false →
      ∀ w' ∈ s.writers.take i, w'.Written

/-! ## The locked steps -/

/-- No route leads to the local node. -/
theorem computeRoutes_lookup_local (db : TopologyDatabase) {id : NodeId}
    (hid : db.localNodeId = id) : db.computeRoutes.routes.lookup id = none := by
  show (buildRoutes db.localNodeId _).lookup id = none
  rw [buildRoutes_lookup, if_neg (fun h => h.1 hid.symm)]

/-- What a locked step does: it hands the routes it leaves to the table, or
changes nothing. -/
theorem locked_cases (db : TopologyDatabase) (now : Nat) (task : Task) :
    (∃ db', task.locked db now = (db', some db'.routes) ∧ db'.localNodeId = db.localNodeId ∧
      db'.routes.lookup db.localNodeId = none) ∨
    task.locked db now = (db, none) := by
  have hlocal : ∀ neighbors, (db.updateLocalNeighbors now neighbors).2.routes.lookup
      db.localNodeId = none := fun neighbors => computeRoutes_lookup_local _ rfl
  cases task with
  | connected neighbors => exact Or.inl ⟨_, rfl, rfl, hlocal neighbors⟩
  | disconnected neighbors => exact Or.inl ⟨_, rfl, rfl, hlocal neighbors⟩
  | receivedUpdate update =>
    simp only [Task.locked]
    by_cases hold : maxTopologyAgeSecs < now - update.timestamp
    · rw [process_old db hold]
      exact Or.inr rfl
    · rcases process_fresh db (Nat.not_lt.mp hold) with ⟨_, _, _, heq⟩ | ⟨_, heq⟩
      · rw [heq]
        exact Or.inr rfl
      · rw [heq]
        exact Or.inl ⟨_, rfl, rfl, computeRoutes_lookup_local _ rfl⟩

/-! ## The writes of one task -/

/-- The task has not touched the table. -/
def Writer.Fresh (w : Writer) : Prop := w.retained = false ∧ w.left = w.computed.entries

/-- The table is what the task has made of it so far: right for every
destination it does not still have to write. -/
structure Writer.Writing (w : Writer) (table : RoutingTable) : Prop where
  retained : w.retained = true
  left_sub : ∀ e ∈ w.left, w.computed.lookup e.1 = some e.2
  settled : ∀ dst, (∀ e ∈ w.left, e.1 ≠ dst) →
    table.routes.lookup dst = (w.computed.lookup dst).map hopSetOf

section

variable {w : Writer} {table : RoutingTable}

theorem Writer.Writing.follows (h : w.Writing table) (hleft : w.left = []) :
    table.Follows w.computed := by
  intro dst
  refine h.settled dst ?_
  rw [hleft]
  exact fun e he => absurd he List.not_mem_nil

/-- Clearing the table: every destination without a route is right. -/
theorem Writer.Fresh.retain (h : w.Fresh)
    (htable : table.routes.lookup table.localNodeId = none) :
    Writer.Writing { w with retained := true } table.retainLocal := by
  refine ⟨rfl, ?_, ?_⟩
  · intro e he
    have he' : e ∈ w.computed.entries := h.2 ▸ he
    exact HashMap.mem_entries_iff.mp he'
  · intro dst hdst
    have hnone : w.computed.lookup dst = none := by
      cases hl : w.computed.lookup dst with
      | none => rfl
      | some r =>
        have hmem : ⟨dst, r⟩ ∈ w.left := h.2 ▸ HashMap.mem_entries_iff.mpr hl
        exact absurd rfl (hdst ⟨dst, r⟩ hmem)
    show (table.routes.retain _).lookup dst = (w.computed.lookup dst).map hopSetOf
    rw [hnone, HashMap.lookup_retain]
    by_cases hlocal : dst = table.localNodeId
    · rw [hlocal, htable]
      simp
    · simp [hlocal]

/-- Inserting an entry makes its destination right. -/
theorem Writer.Writing.insert (h : w.Writing table) {j : Nat}
    {e : Sigma fun _ : NodeId => ComputedRoute} (hj : w.left[j]? = some e) :
    Writer.Writing { w with left := w.left.eraseIdx j } (table.insertRoute e.1 e.2) := by
  have hmem : e ∈ w.left := List.mem_of_getElem? hj
  refine ⟨h.retained, ?_, ?_⟩
  · intro e' he'
    exact h.left_sub e' (List.mem_of_mem_eraseIdx he')
  · intro dst hdst
    show (table.routes.insert e.1 (hopSetOf e.2)).lookup dst = _
    rw [HashMap.lookup_insert_ite]
    by_cases hd : dst = e.1
    · rw [if_pos hd, hd, h.left_sub e hmem]
      rfl
    · rw [if_neg hd]
      refine h.settled dst ?_
      intro e' he' heq
      obtain ⟨hlt, hget⟩ := List.getElem?_eq_some_iff.mp hj
      have hperm := List.getElem_cons_eraseIdx_perm hlt
      rw [hget] at hperm
      rcases List.mem_cons.mp (hperm.mem_iff.mpr he') with rfl | hin
      · exact hd heq.symm
      · exact hdst e' hin heq

end

/-! ## The invariant -/

/-- The tasks that still have routes to write: at most the first has begun, and
the last has the routes of the database. With none left, the table has them. -/
def Pending (table : RoutingTable) (db : TopologyDatabase) : List Writer → Prop
  | [] => table.Follows db.routes
  | w :: rest => (w.Fresh ∨ w.Writing table) ∧ (∀ w' ∈ rest, w'.Fresh) ∧
      ∃ last, (w :: rest).getLast? = some last ∧ last.computed = db.routes

/-- What holds while the tasks keep to the order of their locked steps. -/
structure Handlers.Inv (s : Handlers) : Prop where
  local_eq : s.table.localNodeId = s.db.localNodeId
  table_local : s.table.routes.lookup s.db.localNodeId = none
  computed_local : ∀ w ∈ s.writers, w.computed.lookup s.db.localNodeId = none
  queue : ∃ written pending, s.writers = written ++ pending ∧ (∀ w ∈ written, w.Written) ∧
    Pending s.table s.db pending

theorem Handlers.inv_new (localNodeId : NodeId) (hash : UInt64 → UInt64 → UInt64 → UInt64)
    (tasks : List Task) : (Handlers.new localNodeId hash tasks).Inv where
  local_eq := rfl
  table_local := rfl
  computed_local := fun _ hw => absurd hw List.not_mem_nil
  queue := ⟨[], [], rfl, fun _ hw => absurd hw List.not_mem_nil, fun _ => rfl⟩

/-- A locked step appends its task to those that write. -/
theorem Pending.lock {table : RoutingTable} {db db' : TopologyDatabase} {pending : List Writer}
    (h : Pending table db pending) :
    Pending table db' (pending ++ [Writer.start db'.routes]) := by
  cases pending with
  | nil =>
    refine ⟨Or.inl ⟨rfl, rfl⟩, fun w hw => absurd hw List.not_mem_nil, _, rfl, rfl⟩
  | cons w rest =>
    obtain ⟨hw, hrest, _⟩ := h
    refine ⟨hw, ?_, Writer.start db'.routes, ?_, rfl⟩
    · intro w' hw'
      rcases List.mem_append.mp hw' with hin | hnew
      · exact hrest w' hin
      · rw [List.mem_singleton.mp hnew]
        exact ⟨rfl, rfl⟩
    · show ((w :: rest) ++ [Writer.start db'.routes]).getLast? = _
      exact List.getLast?_concat

theorem Handlers.Inv.lock {s : Handlers} (h : s.Inv) (i now : Nat) :
    (s.step (.lock i now)).Inv := by
  unfold Handlers.step
  dsimp only
  cases s.waiting[i]? with
  | none => exact h
  | some task =>
    obtain ⟨written, pending, hw, hwritten, hpending⟩ := h.queue
    rcases locked_cases s.db now task with ⟨db', heq, hlocal, hroutes⟩ | heq
    · dsimp only
      rw [heq]
      refine ⟨h.local_eq.trans hlocal.symm, ?_, ?_, ?_⟩
      · show s.table.routes.lookup db'.localNodeId = none
        rw [hlocal]
        exact h.table_local
      · intro w hmem
        show w.computed.lookup db'.localNodeId = none
        rw [hlocal]
        rcases List.mem_append.mp hmem with hin | hnew
        · exact h.computed_local w hin
        · rw [List.mem_singleton.mp hnew]
          exact hroutes
      · refine ⟨written, pending ++ [Writer.start db'.routes], ?_, hwritten, hpending.lock⟩
        show s.writers ++ [Writer.start db'.routes] = _
        rw [hw, List.append_assoc]
    · dsimp only
      rw [heq]
      refine ⟨h.local_eq, h.table_local, ?_, written, pending, ?_, hwritten, hpending⟩
      · intro w hmem
        exact h.computed_local w (by simpa using hmem)
      · show s.writers ++ [] = _
        rw [List.append_nil]
        exact hw

/-! ## A write -/

/-- What a write can do, for a task that has not begun or whose entries left are
its own. -/
theorem write_cases (w : Writer) (table : RoutingTable) (j : Nat) :
    (w.retained = false ∧ w.write table j = (table.retainLocal, some { w with retained := true })) ∨
    (w.retained = true ∧ ∃ e, w.left[j]? = some e ∧
      w.write table j = (table.insertRoute e.1 e.2, some { w with left := w.left.eraseIdx j })) ∨
    (w.Written ∧ w.write table j = (table.bumpEpoch, none)) ∨
    w.write table j = (table, some w) := by
  unfold Writer.write
  cases hr : w.retained with
  | false => exact Or.inl ⟨rfl, rfl⟩
  | true =>
    refine Or.inr ?_
    rw [if_neg (by simp)]
    cases hj : w.left[j]? with
    | some e => exact Or.inl ⟨rfl, e, rfl, rfl⟩
    | none =>
      refine Or.inr ?_
      dsimp only
      split
      next hleft => exact Or.inl ⟨⟨hr, hleft⟩, rfl⟩
      next => exact Or.inr rfl

theorem Writer.Writing.bumpEpoch {w : Writer} {table : RoutingTable} (h : w.Writing table) :
    w.Writing table.bumpEpoch :=
  ⟨h.retained, h.left_sub, h.settled⟩

theorem Pending.bumpEpoch {table : RoutingTable} {db : TopologyDatabase} {pending : List Writer}
    (h : Pending table db pending) : Pending table.bumpEpoch db pending := by
  cases pending with
  | nil => exact h
  | cons w rest => exact ⟨h.1.imp id Writer.Writing.bumpEpoch, h.2⟩

/-- The first task has written everything, and makes way for the next. -/
theorem Pending.next {table : RoutingTable} {db : TopologyDatabase} {w : Writer}
    {rest : List Writer} (h : Pending table db (w :: rest)) (hw : w.Written) :
    Pending table db rest := by
  obtain ⟨hfirst, hrest, last, hlast, hcomputed⟩ := h
  have hwriting : w.Writing table := by
    refine hfirst.resolve_left ?_
    intro hfresh
    exact absurd (hw.1.symm.trans hfresh.1) (by simp)
  cases rest with
  | nil =>
    obtain rfl : w = last := Option.some.inj hlast
    show table.Follows db.routes
    rw [← hcomputed]
    exact hwriting.follows hw.2
  | cons w' rest =>
    refine ⟨Or.inl (hrest w' (List.mem_cons_self ..)), ?_, last, ?_, hcomputed⟩
    · intro w'' hw''
      exact hrest w'' (List.mem_cons_of_mem w' hw'')
    · rw [List.getLast?_cons_cons] at hlast
      exact hlast

/-- Tasks that have all written everything make way together. -/
theorem Pending.next_of_written {table : RoutingTable} {db : TopologyDatabase}
    {pre rest : List Writer} (h : Pending table db (pre ++ rest)) (hpre : ∀ w ∈ pre, w.Written) :
    Pending table db rest := by
  induction pre with
  | nil => exact h
  | cons w pre ih =>
    exact ih (Pending.next h (hpre w (List.mem_cons_self ..)))
      (fun w' hw' => hpre w' (List.mem_cons_of_mem w hw'))

/-- The first task goes on, and the others stay as they are. -/
theorem Pending.replace {table table' : RoutingTable} {db : TopologyDatabase} {w w' : Writer}
    {rest : List Writer} (h : Pending table db (w :: rest)) (hw' : w'.Writing table')
    (hcomputed : w'.computed = w.computed) : Pending table' db (w' :: rest) := by
  obtain ⟨_, hrest, last, hlast, hlc⟩ := h
  cases rest with
  | nil =>
    obtain rfl : w = last := Option.some.inj hlast
    exact ⟨Or.inr hw', hrest, w', rfl, hcomputed.trans hlc⟩
  | cons w'' rest =>
    refine ⟨Or.inr hw', hrest, last, ?_, hlc⟩
    rw [List.getLast?_cons_cons] at hlast ⊢
    exact hlast

/-- Only the first of the pending tasks has begun. -/
theorem Pending.first_of_retained {table : RoutingTable} {db : TopologyDatabase} {w : Writer}
    {pre post : List Writer} (h : Pending table db (pre ++ w :: post)) (hw : w.retained = true) :
    pre = [] := by
  cases pre with
  | nil => rfl
  | cons w' pre =>
    obtain ⟨_, hrest, _⟩ := h
    have hfresh := hrest w (List.mem_append_right pre (List.mem_cons_self ..))
    exact absurd (hw.symm.trans hfresh.1) (by simp)

/-- A task of the queue has written everything, or it is pending, behind tasks
that are too. -/
theorem Handlers.Inv.locate {s : Handlers} (h : s.Inv) {w : Writer} {pre post : List Writer}
    (hs : s.writers = pre ++ w :: post) :
    (w.Written ∧ ∃ done rest, post = done ++ rest ∧ (∀ w' ∈ pre ++ done, w'.Written) ∧
      Pending s.table s.db rest) ∨
    (∃ written before, pre = written ++ before ∧ (∀ w' ∈ written, w'.Written) ∧
      Pending s.table s.db (before ++ w :: post)) := by
  obtain ⟨written, pending, hq, hwritten, hpending⟩ := h.queue
  rcases List.append_eq_append_iff.mp (hq.symm.trans hs) with
    ⟨before, hpre, hpost⟩ | ⟨done, hwr, hpost⟩
  · exact Or.inr ⟨written, before, hpre, hwritten, hpost ▸ hpending⟩
  · cases done with
    | nil =>
      refine Or.inr ⟨pre, [], (List.append_nil pre).symm, ?_, ?_⟩
      · rw [List.append_nil] at hwr
        exact hwr ▸ hwritten
      · exact (show w :: post = pending from hpost) ▸ hpending
    | cons x done =>
      obtain ⟨rfl, hrest⟩ := List.cons.inj hpost
      refine Or.inl ⟨hwritten w (hwr ▸ by simp), done, pending, hrest, ?_, hpending⟩
      intro w' hw'
      refine hwritten w' (hwr ▸ ?_)
      rcases List.mem_append.mp hw' with hin | hin
      · exact List.mem_append_left _ hin
      · exact List.mem_append_right _ (List.mem_cons_of_mem w hin)

/-- The parts of the invariant that do not see the order of the tasks. -/
theorem Handlers.Inv.of_queue {s : Handlers} (h : s.Inv) {table : RoutingTable} {w : Writer}
    {pre post : List Writer} {next : Option Writer} (hs : s.writers = pre ++ w :: post)
    (hnext : ∀ w' ∈ next, w'.computed = w.computed)
    (hlocal : table.localNodeId = s.table.localNodeId)
    (htable : table.routes.lookup s.db.localNodeId = none) {written pending : List Writer}
    (hsplit : pre ++ next.toList ++ post = written ++ pending)
    (hwritten : ∀ w ∈ written, w.Written) (hpending : Pending table s.db pending) :
    ({ s with table, writers := pre ++ next.toList ++ post } : Handlers).Inv := by
  refine ⟨hlocal.trans h.local_eq, htable, ?_, written, pending, hsplit, hwritten, hpending⟩
  intro x hx
  have hold : ∀ y ∈ pre ++ w :: post, y.computed.lookup s.db.localNodeId = none :=
    hs ▸ h.computed_local
  rcases List.mem_append.mp hx with hin | hin
  · rcases List.mem_append.mp hin with hpre | hnew
    · exact hold x (List.mem_append_left _ hpre)
    · show x.computed.lookup s.db.localNodeId = none
      rw [hnext x (Option.mem_toList.mp hnew)]
      exact hold w (List.mem_append_right _ (List.mem_cons_self ..))
  · exact hold x (List.mem_append_right _ (List.mem_cons_of_mem w hin))

section

variable {s : Handlers} {w : Writer} {pre post : List Writer}

/-- A task clears the table when those before it have nothing left to write. -/
theorem Handlers.Inv.retain (h : s.Inv) (hs : s.writers = pre ++ w :: post)
    (hr : w.retained = false) (hpre : ∀ w' ∈ pre, w'.Written) :
    ({ s with table := s.table.retainLocal
              writers := pre ++ (some { w with retained := true }).toList ++ post } :
      Handlers).Inv := by
  rcases h.locate hs with ⟨hw, _⟩ | ⟨written, before, hbefore, _, hpending⟩
  · exact absurd (hr.symm.trans hw.1) (by simp)
  · have hpending' : Pending s.table s.db (w :: post) := by
      refine hpending.next_of_written ?_
      intro w' hw'
      exact hpre w' (hbefore ▸ List.mem_append_right written hw')
    have hfresh : w.Fresh := by
      refine hpending'.1.resolve_right ?_
      intro hwriting
      exact absurd (hr.symm.trans hwriting.retained) (by simp)
    have hretain : Writer.Writing { w with retained := true } s.table.retainLocal :=
      hfresh.retain (h.local_eq ▸ h.table_local)
    refine h.of_queue hs ?_ rfl ?_ (List.append_assoc ..) hpre (hpending'.replace hretain rfl)
    · intro w' hw'
      rw [← Option.some.inj hw']
    · refine (HashMap.lookup_retain ..).trans ?_
      rw [h.table_local]
      simp

/-- The task that has begun inserts an entry. -/
theorem Handlers.Inv.insert (h : s.Inv) (hs : s.writers = pre ++ w :: post)
    (hr : w.retained = true) {j : Nat} {e : Sigma fun _ : NodeId => ComputedRoute}
    (hj : w.left[j]? = some e) :
    ({ s with table := s.table.insertRoute e.1 e.2
              writers := pre ++ (some { w with left := w.left.eraseIdx j }).toList ++ post } :
      Handlers).Inv := by
  rcases h.locate hs with ⟨hw, _⟩ | ⟨written, before, hbefore, hwritten, hpending⟩
  · rw [hw.2] at hj
    exact absurd hj (by simp)
  · obtain rfl := hpending.first_of_retained hr
    rw [List.append_nil] at hbefore
    have hwriting : w.Writing s.table := by
      refine hpending.1.resolve_left ?_
      intro hfresh
      exact absurd (hr.symm.trans hfresh.1) (by simp)
    refine h.of_queue hs ?_ rfl ?_ (List.append_assoc ..) (hbefore ▸ hwritten)
      (hpending.replace (hwriting.insert hj) rfl)
    · intro w' hw'
      rw [← Option.some.inj hw']
    · have hmem : e ∈ w.left := List.mem_of_getElem? hj
      have hne : s.db.localNodeId ≠ e.1 := by
        intro hlocal
        have hcomputed := h.computed_local w (hs ▸ by simp)
        rw [hlocal, hwriting.left_sub e hmem] at hcomputed
        exact absurd hcomputed (by simp)
      exact (AList.lookup_insert_ne hne).trans h.table_local

/-- A task ends, and its place in the queue goes. -/
theorem Handlers.Inv.finish (h : s.Inv) (hs : s.writers = pre ++ w :: post) (hw : w.Written) :
    ({ s with table := s.table.bumpEpoch
              writers := pre ++ (none : Option Writer).toList ++ post } : Handlers).Inv := by
  have hnext : ∀ w' ∈ (none : Option Writer), w'.computed = w.computed :=
    fun w' hw' => absurd hw' (by simp)
  rcases h.locate hs with ⟨_, done, rest, hpost, hdone, hpending⟩ |
    ⟨written, before, hbefore, hwritten, hpending⟩
  · refine h.of_queue hs hnext rfl h.table_local ?_ hdone hpending.bumpEpoch
    rw [hpost]
    simp
  · obtain rfl := hpending.first_of_retained hw.1
    rw [List.append_nil] at hbefore
    refine h.of_queue hs hnext rfl h.table_local ?_ (hbefore ▸ hwritten)
      (hpending.next hw).bumpEpoch
    simp

end

/-- A write in lock order keeps the invariant. -/
theorem Handlers.Inv.write {s : Handlers} (h : s.Inv) {i j : Nat}
    (horder : TaskStep.InLockOrder s (.write i j)) : (s.step (.write i j)).Inv := by
  unfold Handlers.step
  dsimp only
  cases hi : s.writers[i]? with
  | none => exact h
  | some w =>
    obtain ⟨hlt, hget⟩ := List.getElem?_eq_some_iff.mp hi
    have hs : s.writers = s.writers.take i ++ w :: s.writers.drop (i + 1) := by
      rw [← hget, List.cons_getElem_drop_succ, List.take_append_drop]
    dsimp only
    rcases write_cases w s.table j with ⟨hr, heq⟩ | ⟨hr, e, hj, heq⟩ | ⟨hw, heq⟩ | heq
    · rw [heq]
      exact h.retain hs hr (horder w hi hr)
    · rw [heq]
      exact h.insert hs hr hj
    · rw [heq]
      exact h.finish hs hw
    · rw [heq]
      have hsame : s.writers.take i ++ (some w).toList ++ s.writers.drop (i + 1) = s.writers :=
        (List.append_assoc ..).trans hs.symm
      dsimp only
      rw [hsame]
      exact h

/-! ## Runs -/

/-- **When the routing table follows the database.** In a run in which every
task clears the table only after the writes of the tasks that held the database
lock before it, the table has the database's routes whenever all tasks have
finished. -/
theorem table_follows_database (localNodeId : NodeId)
    (hash : UInt64 → UInt64 → UInt64 → UInt64) (tasks : List Task) (steps : List TaskStep)
    (horder : Along Handlers.step TaskStep.InLockOrder (Handlers.new localNodeId hash tasks) steps)
    (hdone : (steps.foldl Handlers.step (Handlers.new localNodeId hash tasks)).Done) :
    RoutingTable.Follows (steps.foldl Handlers.step (Handlers.new localNodeId hash tasks)).table
      (steps.foldl Handlers.step (Handlers.new localNodeId hash tasks)).db.routes := by
  have hinv := horder.inv (I := Handlers.Inv) ?_ (Handlers.inv_new localNodeId hash tasks)
  · obtain ⟨written, pending, hq, _, hpending⟩ := hinv.queue
    rw [hdone.2] at hq
    obtain ⟨_, rfl⟩ := List.append_eq_nil_iff.mp hq.symm
    exact hpending
  · intro s a hs ha
    cases a with
    | lock i now => exact hs.lock i now
    | write i j => exact hs.write ha

/-- Node 1 connects to node 2, and its table follows. -/
theorem table_follows_connect :
    RoutingTable.Follows
      ([TaskStep.lock 0 0, .write 0 0, .write 0 0, .write 0 0].foldl Handlers.step
        (Handlers.new 1 (fun _ _ _ => 0) [.connected [⟨2, 100, none⟩]])).table
      ([TaskStep.lock 0 0, .write 0 0, .write 0 0, .write 0 0].foldl Handlers.step
        (Handlers.new 1 (fun _ _ _ => 0) [.connected [⟨2, 100, none⟩]])).db.routes := by
  refine table_follows_database 1 _ _ _ ?_ ?_
  · refine ⟨trivial, ?_, ?_, ?_, trivial⟩
    · exact fun _ _ _ w' hw' => absurd hw' (by simp)
    · exact fun _ _ _ w' hw' => absurd hw' (by simp)
    · exact fun _ _ _ w' hw' => absurd hw' (by simp)
  · refine ⟨List.isEmpty_iff.mp ?_, List.isEmpty_iff.mp ?_⟩
    · decide +kernel
    · decide +kernel

/-- Node 1 connects to node 2 and then to node 3. The second task writes its two
routes first; then the first one clears the table and leaves only node 2 in it. -/
theorem table_left_stale :
    ¬ ∀ (localNodeId : NodeId) (hash : UInt64 → UInt64 → UInt64 → UInt64) (tasks : List Task)
      (steps : List TaskStep),
      (steps.foldl Handlers.step (Handlers.new localNodeId hash tasks)).Done →
      RoutingTable.Follows (steps.foldl Handlers.step (Handlers.new localNodeId hash tasks)).table
        (steps.foldl Handlers.step (Handlers.new localNodeId hash tasks)).db.routes := by
  intro h
  have hthree := h 1 (fun _ _ _ => 0)
    [.connected [⟨2, 100, none⟩], .connected [⟨2, 100, none⟩, ⟨3, 100, none⟩]]
    [.lock 0 0, .lock 0 0, .write 1 0, .write 1 0, .write 1 0, .write 1 0, .write 0 0, .write 0 0,
      .write 0 0]
    ⟨List.isEmpty_iff.mp (by decide +kernel), List.isEmpty_iff.mp (by decide +kernel)⟩ 3
  revert hthree
  decide +kernel

end MeshCore.Routing
