import MeshCore.Routing.Tasks

/-!
# Decisions during an update

`update_routes_from_topology` clears the table and then inserts the new routes
one after the other. `decide` looks its destination up in the same map, and
nothing keeps it out in between.

`Update` runs one update in its steps, with decisions between any two. While the
table has been cleared, the destinations that are still to be inserted have no
route, and all others have their new one (`Filled`). So a destination with a
route before and after the update is dropped with `NoRoute` exactly when the
decision falls between the clearing and the insertion of this destination
(`hitless_iff`). One right after the clearing is enough (`dropped_after_retain`).
-/

namespace MeshCore.Routing

open MeshCore.Lib
open MeshCore.Topology (NodeId ComputedRoute)

/-! ## The update and the decisions -/

/-- A table, the update in progress unless it is over, and the decisions made so
far. -/
structure Update where
  table : RoutingTable
  writer : Option Writer
  decided : List (RoutingContext × RoutingDecision)

/-- The next write of the update, `j` being the entry its iteration gives next, or
a decision. -/
inductive UpdateStep where
  | write (j : Nat)
  | decide (ctx : RoutingContext)

/-- One step. -/
def Update.step (s : Update) : UpdateStep → Update
  | .write j =>
    match s.writer with
    | none => s
    | some w =>
      let (table, writer) := w.write s.table j
      { s with table, writer }
  | .decide ctx => { s with decided := s.decided ++ [(ctx, s.table.decide ctx)] }

/-- Before the update of a table to some computed routes. -/
def Update.start (old : RoutingTable) (computed : HashMap NodeId ComputedRoute) : Update :=
  { table := old, writer := some (.start computed), decided := [] }

/-- A run. -/
def Update.run (s : Update) (steps : List UpdateStep) : Update := steps.foldl Update.step s

/-- A message with TTL left for a destination, other than this node, that has a
non-empty route in the old table and one among the computed routes. -/
structure Routed (old : RoutingTable) (computed : HashMap NodeId ComputedRoute)
    (ctx : RoutingContext) : Prop where
  not_local : ctx.dstNode ≠ old.localNodeId
  ttl : 0 < ctx.ttl
  before : ∃ hopSet, old.routes.lookup ctx.dstNode = some hopSet ∧ hopSet.hops ≠ []
  after : ∃ r, computed.lookup ctx.dstNode = some r

/-- No such message has been dropped for want of a route. -/
def Update.Hitless (old : RoutingTable) (computed : HashMap NodeId ComputedRoute) (s : Update) :
    Prop :=
  ∀ d ∈ s.decided, Routed old computed d.1 → d.2 ≠ .drop .noRoute

/-- The table has been cleared, and the route to this destination is still to be
inserted. -/
def Update.Missing (s : Update) (dst : NodeId) : Prop :=
  ∃ w ∈ s.writer, w.retained = true ∧ ∃ e ∈ w.left, e.1 = dst

/-- The step makes no decision about a destination that is missing. -/
def UpdateStep.Spares (old : RoutingTable) (computed : HashMap NodeId ComputedRoute) (s : Update) :
    UpdateStep → Prop
  | .write _ => True
  | .decide ctx => Routed old computed ctx → ¬ s.Missing ctx.dstNode

/-! ## The table during the update -/

/-- The cleared table, with the routes that have been inserted: the destinations
left have no route, and the others their new one. The local node is set aside, as
its route, if it has one, is not cleared. -/
structure Filled (computed : HashMap NodeId ComputedRoute)
    (left : List (Sigma fun _ : NodeId => ComputedRoute)) (table : RoutingTable) : Prop where
  nodupKeys : left.NodupKeys
  left_sub : ∀ e ∈ left, computed.lookup e.1 = some e.2
  missing : ∀ e ∈ left, e.1 ≠ table.localNodeId → table.routes.lookup e.1 = none
  settled : ∀ dst, dst ≠ table.localNodeId → (∀ e ∈ left, e.1 ≠ dst) →
    table.routes.lookup dst = (computed.lookup dst).map hopSetOf

theorem filled_retain (computed : HashMap NodeId ComputedRoute) (table : RoutingTable) :
    Filled computed computed.entries table.retainLocal := by
  have hcleared : ∀ dst, dst ≠ table.localNodeId →
      table.retainLocal.routes.lookup dst = none := by
    intro dst hdst
    refine (HashMap.lookup_retain ..).trans ?_
    simp [hdst]
  refine ⟨computed.nodupKeys, fun e he => HashMap.mem_entries_iff.mp he,
    fun e _ hlocal => hcleared e.1 hlocal, fun dst hlocal hdst => ?_⟩
  rw [hcleared dst hlocal]
  cases hl : computed.lookup dst with
  | none => rfl
  | some r => exact absurd rfl (hdst ⟨dst, r⟩ (HashMap.mem_entries_iff.mpr hl))

theorem Filled.insert {computed : HashMap NodeId ComputedRoute}
    {left : List (Sigma fun _ : NodeId => ComputedRoute)} {table : RoutingTable}
    (h : Filled computed left table) {j : Nat} {e : Sigma fun _ : NodeId => ComputedRoute}
    (hj : left[j]? = some e) : Filled computed (left.eraseIdx j) (table.insertRoute e.1 e.2) := by
  obtain ⟨hlt, hget⟩ := List.getElem?_eq_some_iff.mp hj
  have hperm : (e :: left.eraseIdx j).Perm left := hget ▸ List.getElem_cons_eraseIdx_perm hlt
  -- the destination does not occur again among those left
  obtain ⟨hnotin, hnodup⟩ := List.nodupKeys_cons.mp ((List.perm_nodupKeys hperm).mpr h.nodupKeys)
  have hne : ∀ e' ∈ left.eraseIdx j, e'.1 ≠ e.1 := by
    intro e' he' heq
    exact hnotin (heq ▸ List.mem_keys_of_mem he')
  refine ⟨hnodup, fun e' he' => h.left_sub e' (List.mem_of_mem_eraseIdx he'),
    fun e' he' hlocal => ?_, fun dst hlocal hdst => ?_⟩
  · show (table.routes.insert e.1 (hopSetOf e.2)).lookup e'.1 = none
    rw [AList.lookup_insert_ne (hne e' he')]
    exact h.missing e' (List.mem_of_mem_eraseIdx he') hlocal
  · show (table.routes.insert e.1 (hopSetOf e.2)).lookup dst = _
    rw [HashMap.lookup_insert_ite]
    split
    next hd => rw [hd, h.left_sub e (List.mem_of_getElem? hj), Option.map_some]
    next hd =>
      refine h.settled dst hlocal fun e' he' heq => ?_
      rcases List.mem_cons.mp (hperm.mem_iff.mpr he') with rfl | hin
      · exact hd heq.symm
      · exact hdst e' hin heq

/-- The table in a state of the update: the old one, or cleared and filled so far. -/
structure Update.Inv (old : RoutingTable) (computed : HashMap NodeId ComputedRoute) (s : Update) :
    Prop where
  localNodeId : s.table.localNodeId = old.localNodeId
  untouched : ∀ w ∈ s.writer, w.retained = false →
    s.table.routes = old.routes ∧ w.left = computed.entries
  writing : ∀ w ∈ s.writer, w.retained = true → Filled computed w.left s.table
  finished : s.writer = none → Filled computed [] s.table

variable {old : RoutingTable} {computed : HashMap NodeId ComputedRoute} {s : Update}

theorem Update.inv_start (old : RoutingTable) (computed : HashMap NodeId ComputedRoute) :
    (Update.start old computed).Inv old computed where
  localNodeId := rfl
  untouched := by
    rintro w hw -
    rw [← Option.some.inj hw]
    exact ⟨rfl, rfl⟩
  writing := by
    intro w hw hr
    rw [← Option.some.inj hw] at hr
    exact absurd hr (by simp [Writer.start])
  finished := fun h => absurd h (by simp [Update.start])

theorem Update.Inv.step (h : s.Inv old computed) (a : UpdateStep) :
    (s.step a).Inv old computed := by
  cases a with
  | decide ctx => exact ⟨h.localNodeId, h.untouched, h.writing, h.finished⟩
  | write j =>
    unfold Update.step
    dsimp only
    cases hw : s.writer with
    | none => exact h
    | some w =>
      dsimp only
      rcases write_cases w s.table j with ⟨hr, heq⟩ | ⟨hr, e, hj, heq⟩ | ⟨hwritten, heq⟩ | heq
      · rw [heq]
        obtain ⟨-, hleft⟩ := h.untouched w hw hr
        refine ⟨h.localNodeId, fun w' hw' hr' => ?_, fun w' hw' _ => ?_,
          fun hn => absurd hn (by simp)⟩
        · rw [← Option.some.inj hw'] at hr'
          exact absurd hr' (by simp)
        · rw [← Option.some.inj hw']
          show Filled computed w.left s.table.retainLocal
          rw [hleft]
          exact filled_retain computed s.table
      · rw [heq]
        refine ⟨h.localNodeId, fun w' hw' hr' => ?_, fun w' hw' _ => ?_,
          fun hn => absurd hn (by simp)⟩
        · rw [← Option.some.inj hw'] at hr'
          exact absurd (hr'.symm.trans hr) (by simp)
        · rw [← Option.some.inj hw']
          exact (h.writing w hw hr).insert hj
      · rw [heq]
        refine ⟨h.localNodeId, fun w' hw' => absurd hw' (by simp),
          fun w' hw' => absurd hw' (by simp), fun _ => ?_⟩
        have hfilled := h.writing w hw hwritten.1
        rw [hwritten.2] at hfilled
        exact ⟨hfilled.nodupKeys, hfilled.left_sub, hfilled.missing, hfilled.settled⟩
      · rw [heq]
        have hsame : ({ s with table := s.table, writer := some w } : Update) = s := by
          rw [← hw]
        dsimp only
        rw [hsame]
        exact h

/-- **A decision** about a destination with a route before and after drops it
exactly while it is missing. -/
theorem Update.Inv.decide_iff (h : s.Inv old computed) {ctx : RoutingContext}
    (hrouted : Routed old computed ctx) :
    s.table.decide ctx = .drop .noRoute ↔ s.Missing ctx.dstNode := by
  have hlocal : ctx.dstNode ≠ s.table.localNodeId := h.localNodeId ▸ hrouted.not_local
  have httl : ctx.ttl ≠ 0 := (UInt8.ne_of_lt hrouted.ttl).symm
  obtain ⟨r, hr⟩ := hrouted.after
  -- once inserted, the route has one hop
  have hinserted : ∀ {left}, Filled computed left s.table → (∀ e ∈ left, e.1 ≠ ctx.dstNode) →
      s.table.decide ctx ≠ .drop .noRoute := by
    intro left hfilled hleft hdrop
    have hroute := hfilled.settled ctx.dstNode hlocal hleft
    rw [hr] at hroute
    have hnil := (RoutingTable.decide_noRoute_iff hlocal httl).mp hdrop _ hroute
    exact absurd hnil (by simp [hopSetOf, HopSet.single])
  constructor
  · intro hdrop
    cases hw : s.writer with
    | none => exact absurd hdrop (hinserted (h.finished hw) fun e he => absurd he List.not_mem_nil)
    | some w =>
      cases hret : w.retained with
      | false =>
        obtain ⟨hroutes, -⟩ := h.untouched w hw hret
        obtain ⟨hopSet, hroute, hne⟩ := hrouted.before
        rw [← hroutes] at hroute
        exact absurd ((RoutingTable.decide_noRoute_iff hlocal httl).mp hdrop hopSet hroute) hne
      | true =>
        refine ⟨w, hw, hret, ?_⟩
        by_contra hleft
        push Not at hleft
        exact hinserted (h.writing w hw hret) hleft hdrop
  · rintro ⟨w, hw, hret, e, he, hdst⟩
    refine (RoutingTable.decide_noRoute_iff hlocal httl).mpr fun hopSet hroute => ?_
    have hmissing := (h.writing w hw hret).missing e he (hdst ▸ hlocal)
    rw [hdst, hroute] at hmissing
    exact absurd hmissing (by simp)

/-! ## Runs -/

/-- A step keeps the update hitless exactly when it spares the missing
destinations. -/
theorem Update.Inv.hitless_step_iff (h : s.Inv old computed) (hs : s.Hitless old computed)
    (a : UpdateStep) : (s.step a).Hitless old computed ↔ a.Spares old computed s := by
  cases a with
  | write j =>
    have hsame : (s.step (.write j)).decided = s.decided := by
      unfold Update.step
      dsimp only
      cases s.writer with
      | none => rfl
      | some w => rfl
    refine iff_of_true ?_ trivial
    intro d hd
    rw [hsame] at hd
    exact hs d hd
  | decide ctx =>
    constructor
    · intro hstep hrouted hmissing
      exact hstep _ (List.mem_append_right _ (List.mem_singleton_self _)) hrouted
        ((h.decide_iff hrouted).mpr hmissing)
    · intro hspares d hd hrouted
      rcases List.mem_append.mp hd with hold | hnew
      · exact hs d hold hrouted
      · rw [List.mem_singleton.mp hnew] at hrouted ⊢
        exact fun hdrop => hspares hrouted ((h.decide_iff hrouted).mp hdrop)

/-- **When an update is hitless.** In every state of an update, with decisions at
any points of it, no message with TTL left for a destination that has a route
before and after has been dropped for want of a route, exactly when no decision
about such a destination falls between the clearing of the table and the
insertion of the destination. -/
theorem hitless_iff (old : RoutingTable) (computed : HashMap NodeId ComputedRoute)
    (steps : List UpdateStep) :
    (∀ done, done <+: steps → ((Update.start old computed).run done).Hitless old computed) ↔
      Along Update.step (UpdateStep.Spares old computed) (Update.start old computed) steps := by
  have hstep : ∀ (s : Update) (a : UpdateStep), s.Inv old computed ∧ s.Hitless old computed →
      ((s.step a).Inv old computed ∧ (s.step a).Hitless old computed ↔
        a.Spares old computed s) := by
    rintro s a ⟨hinv, hs⟩
    rw [← hinv.hitless_step_iff hs a]
    exact ⟨And.right, fun hh => ⟨hinv.step a, hh⟩⟩
  rw [← every_state_iff_along (I := fun s => s.Inv old computed ∧ s.Hitless old computed) hstep
    ⟨Update.inv_start old computed, fun d hd => absurd hd List.not_mem_nil⟩]
  refine forall_congr' fun done => imp_congr_right fun _ => ?_
  refine ⟨fun hh => ⟨?_, hh⟩, And.right⟩
  exact List.foldlRecOn done Update.step (Update.inv_start old computed) fun s h a _ => h.step a

/-- Node 1 has a route to node 2, and updates its table to the same route. A
message that comes right after the table was cleared is dropped. -/
theorem dropped_after_retain :
    ¬ ∀ (old : RoutingTable) (computed : HashMap NodeId ComputedRoute) (steps : List UpdateStep),
      ((Update.start old computed).run steps).Hitless old computed := by
  intro h
  let r : ComputedRoute := { dstNode := 2, nextHop := 2, totalCost := 100, hopCount := 1 }
  let old := (RoutingTable.new 1 fun _ _ _ => 0).insertRoute 2 r
  let ctx : RoutingContext := { srcNode := 1, dstNode := 2, ttl := 8, corrId := 0 }
  have hhitless := h old (AList.singleton 2 r) [.write 0, .decide ctx]
    (ctx, .drop .noRoute) (by decide +kernel)
  exact hhitless ⟨by decide, by decide, ⟨HopSet.single (NextHop.new 2 100), by decide, by decide⟩,
    ⟨r, by decide⟩⟩ rfl

end MeshCore.Routing
