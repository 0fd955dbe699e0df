import MeshCore.Network.Flows

/-!
# The messages of a flow, across the mesh

Where every node on a path keeps its route and its session for a flow, every step of the
mesh is a step of the line of queues along that path (`Flow.Inv.step_line`), whatever else
the nodes send, receive and forward. So the destination is handed an initial part of what
was sent, in the order it was sent, each message once and unchanged; nobody else is handed
any of it; and when nothing of the flow is under way, all of it has arrived
(`flow_in_order`).
-/

namespace MeshCore.Network

open MeshCore.Lib MeshCore.Wire MeshCore.Session
open MeshCore.Topology (NodeId)
open MeshCore.Routing

section Steps

variable {env : SessionEnv} {F : Flow} {peer : SessionEnd → NodeId}

/-! ## The invariant -/

/-- What holds of a mesh along the route of a flow. -/
structure Flow.Inv (env : SessionEnv) (F : Flow) (route : Route peer F.src F.dst) (s : Mesh) :
    Prop extends UnderWay env (F.Sound env) s where
  leadsTo : ∀ e ∈ route.hops, F.LeadsTo (s.manager e.1) e.2
  /-- The flow is nowhere else. -/
  outside : ∀ p, p ∉ route.line → F.view env s p = []

variable {route : Route peer F.src F.dst}

theorem Flow.Inv.start {manager : NodeId → SessionManager}
    (hlocal : ∀ n, (manager n).localNodeId = n)
    (hleads : ∀ e ∈ route.hops, F.LeadsTo (manager e.1) e.2) :
    F.Inv env route (.start manager) := by
  refine ⟨.start hlocal, hleads, ?_⟩
  intro p _
  cases p with
  | wire e =>
    have hdrain : framesOn (framing.concat []) = [] := framesOn_concat (by simp)
    show (framesOn (framing.concat [])).filterMap (F.ofFrame env) = []
    rw [hdrain]
    rfl
  | _ => rfl

theorem Flow.decision_of_carries {mgr : SessionManager} {m : OutboundMessage}
    (h : F.Carries m) : mgr.decision m = mgr.routingTable.decide
      { srcNode := mgr.localNodeId, dstNode := F.dst, ttl := 64, corrId := F.corrId } := by
  unfold SessionManager.decision
  rw [h.2.1, h.2.2]

/-! ## Every step is a step of the line -/

/-- A place that has something of the flow is on the line. -/
theorem Flow.Inv.mem_line {s : Mesh} (h : F.Inv env route s) {p : Place} {c : MessageContents}
    {rest : List MessageContents} (hfront : F.view env s p = c :: rest) : p ∈ route.line := by
  by_contra hout
  rw [h.outside p hout] at hfront
  exact absurd hfront (by simp)

/-- What is taken from a place and is nothing of the flow. -/
theorem Flow.view_dropped {s : Mesh} {p : Place} {rest : List MessageContents}
    (hfront : F.view env s p = (none : Option MessageContents).toList ++ rest) :
    Function.update (F.view env s) p rest = F.view env s := by
  rw [Option.toList_none, List.nil_append] at hfront
  rw [← hfront, Function.update_eq_self]

/-- What is taken from a place goes to the next one. -/
theorem Flow.Inv.moves {s : Mesh} (h : F.Inv env route s) {p q : Place} (hne : q ≠ p)
    (hnext : p ∈ route.line → [p, q] <:+: route.line) {o : Option MessageContents}
    {rest : List MessageContents} (hfront : F.view env s p = o.toList ++ rest) :
    LineStep route.line (F.view env s) none
      (Function.update (Function.update (F.view env s) p rest) q (F.view env s q ++ o.toList)) := by
  cases o with
  | none =>
    rw [Flow.view_dropped hfront, update_append_none]
    exact .idle
  | some c =>
    have hpass := LineStep.pass (hnext (h.mem_line hfront)) hfront
    unfold push at hpass
    rw [Function.update_of_ne hne] at hpass
    exact hpass

/-- What a manager makes of the first message of one of its queues is a step of the
line. `s'` is the mesh without that message. -/
theorem Flow.Inv.handle {s s' : Mesh} (h : F.Inv env route s) {n : NodeId} {p : Place}
    (hp : p.IsEntry n) {m : OutboundMessage} {rest : List MessageContents}
    (hfront : F.view env s p = (F.ofOutbound m).toList ++ rest)
    (hview : F.view env s' = Function.update (F.view env s) p rest) :
    LineStep route.line (F.view env s) none
      (F.view env (((s.manager n).handleOutboundMessage m).foldl (Mesh.perform n) s')) := by
  rw [Mesh.perform_handleOutboundMessage (h.localNode n)]
  cases hm : F.ofOutbound m with
  | none =>
    -- a message of another flow: wherever it goes, the flow is where it was
    rw [hm] at hfront
    have hsame : F.view env s' = F.view env s := hview.trans (Flow.view_dropped hfront)
    have hdelivered : F.view env { s' with delivered := push s'.delivered n m.delivered }
        = F.view env s := by
      rw [view_push_delivered, hm, update_append_none, hsame]
    have hqueue : ∀ tx, F.view env { s' with queue := push s'.queue (n, tx) m }
        = F.view env s := by
      intro tx
      rw [view_push_queue, hm, update_append_none, hsame]
    split
    · rw [hdelivered]
      exact .idle
    split
    · split
      · rw [hqueue]
        exact .idle
      · rw [hsame]
        exact .idle
    · rw [hdelivered]
      exact .idle
    · rw [hsame]
      exact .idle
  | some c =>
    rw [hm, Option.toList_some, List.singleton_append] at hfront
    obtain ⟨hcarries, -, -⟩ := Flow.ofOutbound_eq_some.mp hm
    rcases next_entry (.inl rfl) route.leads hp (h.mem_line hfront) with
      ⟨hdst, hnext⟩ | ⟨tx, hmem, hnext⟩
    · rw [if_pos (hcarries.2.1.trans hdst.symm), view_push_delivered, hm, update_append_some,
        hview]
      exact .pass hnext hfront
    · have hne : m.dstNode ≠ n := by
        intro heq
        exact route.ne_dst hmem (heq.symm.trans hcarries.2.1)
      obtain ⟨ecmp, hdecide, hlookup⟩ := h.leadsTo (n, tx) hmem
      rw [if_neg hne, Flow.decision_of_carries hcarries, hdecide]
      dsimp only
      rw [hlookup]
      dsimp only
      rw [view_push_queue, hm, update_append_some, hview]
      exact .pass hnext hfront

/-- A socket with one more frame. -/
theorem Flow.Inv.view_wire_append {s : Mesh} (h : F.Inv env route s) (e : SessionEnd) {f : Frame}
    (hf : f.WellFormed) :
    F.view env { s with wire := Function.update s.wire e (s.wire e ++ f.bytes) }
      = Function.update (F.view env s) (.wire e)
          (F.view env s (.wire e) ++ (F.ofFrame env f).toList) := by
  obtain ⟨frames, hwire, hframes⟩ := h.wire e
  have hwf : ∀ g ∈ frames, g.WellFormed := fun g hg => (hframes g hg).1
  have hwf' : ∀ g ∈ frames ++ [f], g.WellFormed := by
    intro g hg
    rcases List.mem_append.mp hg with hg | hg
    · exact hwf g hg
    · rw [List.mem_singleton.mp hg]
      exact hf
  have hbytes : s.wire e ++ f.bytes = framing.concat (frames ++ [f]) := by
    rw [Framing.concat_append, concat_singleton_frame, hwire]
  have hold : F.view env s (.wire e) = frames.filterMap (F.ofFrame env) := by
    show (framesOn (s.wire e)).filterMap (F.ofFrame env) = _
    rw [hwire, framesOn_concat hwf]
  rw [view_wire, hbytes, framesOn_concat hwf', filterMap_concat, hold]

/-- A session that encodes a message and writes it. -/
theorem Flow.Inv.write_frame {s : Mesh} (h : F.Inv env route s)
    (hread : ReadsBack env.crates env.fromReader) (e : SessionEnd) {m : OutboundMessage}
    (hsound : F.Sound env m) {rest : List OutboundMessage}
    (hfront : F.view env s (.queue e)
      = (F.ofOutbound m).toList ++ rest.filterMap F.ofOutbound) {bytes : Bytes}
    (hwrites : sessionWrites env.crates m = some bytes) :
    LineStep route.line (F.view env s) none (F.view env { s with
      queue := Function.update s.queue e rest
      wire := Function.update s.wire e (s.wire e ++ bytes) }) := by
  obtain ⟨hterm, metaRaw, -, hmeta, rfl, hwf⟩ := sessionWrites_eq_some hwrites
  have hwire := h.view_wire_append e hwf
  rw [Flow.ofFrame_frame hread hsound hterm hmeta] at hwire
  -- the two fields of the mesh are changed one after the other
  have hview : F.view env { s with
      queue := Function.update s.queue e rest
      wire := Function.update s.wire e (s.wire e ++ (m.frame metaRaw).bytes) }
      = Function.update (Function.update (F.view env s) (.queue e)
          (rest.filterMap F.ofOutbound)) (.wire e)
          (F.view env s (.wire e) ++ (F.ofOutbound m).toList) := by
    refine Eq.trans (view_queue env F { s with
      wire := Function.update s.wire e (s.wire e ++ (m.frame metaRaw).bytes) } e rest) ?_
    rw [hwire, Function.update_comm (by simp)]
  rw [hview]
  exact h.moves (by simp) (next_queue (.inl rfl) route.leads) hfront

/-- A session that writes is a step of the line. -/
theorem Flow.Inv.write_line {s : Mesh} (h : F.Inv env route s)
    (hread : ReadsBack env.crates env.fromReader) (e : SessionEnd) :
    LineStep route.line (F.view env s) none (F.view env (s.step env peer (.write e))) := by
  cases hclosed : s.closed e with
  | true =>
    rw [step_idle (.inr (.inr (.inl ⟨e, rfl, .inl hclosed⟩)))]
    exact .idle
  | false =>
    cases hqueue : s.queue e with
    | nil =>
      rw [step_idle (.inr (.inr (.inl ⟨e, rfl, .inr hqueue⟩)))]
      exact .idle
    | cons m rest =>
      have hsound : F.Sound env m := h.queue e m (hqueue ▸ List.mem_cons_self ..)
      have hfront : F.view env s (.queue e)
          = (F.ofOutbound m).toList ++ rest.filterMap F.ofOutbound := by
        show (s.queue e).filterMap F.ofOutbound = _
        rw [hqueue, filterMap_cons_toList]
      -- a message that is taken and not written is none of the flow
      have htaken : F.ofOutbound m = none →
          F.view env { s with queue := Function.update s.queue e rest } = F.view env s := by
        intro hnone
        rw [hnone] at hfront
        exact (view_queue ..).trans (Flow.view_dropped hfront)
      rw [step_write hclosed hqueue]
      split
      next hterm =>
        have hsame : F.view env { s with
            queue := Function.update s.queue e rest
            closed := Function.update s.closed e true } = F.view env s :=
          htaken (Flow.ofOutbound_control (.inr hterm))
        rw [hsame]
        exact .idle
      next hterm =>
        cases hwrites : sessionWrites env.crates m with
        | none =>
          have hnone : F.ofOutbound m = none := by
            by_contra hsome
            obtain ⟨c, hc⟩ := Option.ne_none_iff_exists'.mp hsome
            obtain ⟨bytes, hbuild⟩ := (hsound.clean hc).encodes
            unfold sessionWrites at hwrites
            rw [if_neg hterm, hbuild] at hwrites
            exact absurd hwrites (by simp)
          rw [Option.getD_none, List.append_nil, Function.update_eq_self,
            show F.view env _ = F.view env s from htaken hnone]
          exact .idle
        | some bytes => exact h.write_frame hread e hsound hfront hwrites

/-- A session that reads is a step of the line. -/
theorem Flow.Inv.read_line {s : Mesh} (h : F.Inv env route s) (e : SessionEnd) :
    LineStep route.line (F.view env s) none (F.view env (s.step env peer (.read e))) := by
  obtain ⟨frames, hwire, hframes⟩ := h.wire e
  cases frames with
  | nil =>
    rw [step_idle (.inr (.inr (.inr ⟨e, rfl, hwire⟩)))]
    exact .idle
  | cons f frames =>
    have hwf : ∀ g ∈ f :: frames, g.WellFormed := fun g hg => (hframes g hg).1
    have hwf' : ∀ g ∈ frames, g.WellFormed := fun g hg => hwf g (List.mem_cons_of_mem _ hg)
    have hfront : F.view env s (.wire e)
        = (F.ofFrame env f).toList ++ frames.filterMap (F.ofFrame env) := by
      show (framesOn (s.wire e)).filterMap (F.ofFrame env) = _
      rw [hwire, framesOn_concat hwf, filterMap_cons_toList]
    have hevents : (s.events (peer e) ++ (frameEvent env f).toList).filterMap F.ofEvent
        = F.view env s (.events (peer e)) ++ (F.ofFrame env f).toList := by
      rw [List.filterMap_append]
      refine congrArg (_ ++ ·) ?_
      unfold Flow.ofFrame
      cases frameEvent env f with
      | none => rfl
      | some ev =>
        exact (filterMap_cons_toList F.ofEvent ev []).trans (List.append_nil _)
    have hview : F.view env (s.step env peer (.read e))
        = Function.update (Function.update (F.view env s) (.wire e)
            (frames.filterMap (F.ofFrame env))) (.events (peer e))
            (F.view env s (.events (peer e)) ++ (F.ofFrame env f).toList) := by
      rw [step_read (hframes f (List.mem_cons_self ..)).1 hwire]
      refine Eq.trans (view_events env F { s with
        wire := Function.update s.wire e (framing.concat frames) } (peer e) _) ?_
      rw [hevents, view_wire, framesOn_concat hwf']
    rw [hview]
    exact h.moves (by simp) (next_wire (.inl rfl) route.leads) hfront

/-- What enters the line is what is submitted. -/
theorem Flow.submit_line {s : Mesh} {n : NodeId} {m : OutboundMessage} (hsrc : m.srcNode = n) :
    LineStep route.line (F.view env s) (F.ofOutbound m)
      (F.view env { s with outbound := push s.outbound n m }) := by
  rw [view_push_outbound]
  cases hm : F.ofOutbound m with
  | none =>
    rw [update_append_none]
    exact .idle
  | some c =>
    obtain ⟨hcarries, -, -⟩ := Flow.ofOutbound_eq_some.mp hm
    rw [update_append_some]
    refine .enter ?_
    rw [show n = F.src from hsrc.symm.trans hcarries.1]
    unfold Route.line
    cases route.hops with
    | nil => rfl
    | cons e rest => rfl

/-- **Every step of the mesh is a step of the line.** -/
theorem Flow.Inv.step_line {s : Mesh} (h : F.Inv env route s)
    (hread : ReadsBack env.crates env.fromReader) {a : MeshStep}
    (ha : a.Respects env F route.hops) :
    LineStep route.line (F.view env s) (F.submitted a) (F.view env (s.step env peer a)) := by
  cases a with
  | submit n m => exact Flow.submit_line ha.1
  | handleOutbound n =>
    cases houtbound : s.outbound n with
    | nil =>
      rw [step_idle (.inl ⟨n, rfl, houtbound⟩)]
      exact .idle
    | cons m rest =>
      have hview : F.view env s (.outbound n)
          = (F.ofOutbound m).toList ++ rest.filterMap F.ofOutbound := by
        show (s.outbound n).filterMap F.ofOutbound = _
        rw [houtbound, filterMap_cons_toList]
      rw [step_handleOutbound houtbound]
      exact h.handle (.inl rfl) hview (view_outbound ..)
  | handleEvent n =>
    cases hevents : s.events n with
    | nil =>
      rw [step_idle (.inr (.inl ⟨n, rfl, hevents⟩))]
      exact .idle
    | cons ev rest =>
      have hview : F.view env s (.events n)
          = (F.ofEvent ev).toList ++ rest.filterMap F.ofEvent := by
        show (s.events n).filterMap F.ofEvent = _
        rw [hevents, filterMap_cons_toList]
      by_cases hmessage : ∃ i, ev = .messageReceived i
      · obtain ⟨i, rfl⟩ := hmessage
        rw [step_handleEvent_message hevents]
        exact h.handle (.inr rfl) hview (view_events ..)
      · have hev : EventOf (F.Sound env) ev := h.events n ev (hevents ▸ List.mem_cons_self ..)
        have hnone : F.ofEvent ev = none := by
          cases ev with
          | messageReceived i => exact absurd ⟨i, rfl⟩ hmessage
          | _ => rfl
        rw [hnone, Option.toList_none, List.nil_append] at hview
        rw [step_handleEvent_other hevents hev fun i hi => hmessage ⟨i, hi⟩, view_events, ← hview,
          Function.update_eq_self]
        exact .idle
  | control e m =>
    show LineStep _ _ _ (F.view env { s with queue := push s.queue e m.1 })
    rw [view_push_queue, Flow.ofOutbound_control m.2, update_append_none]
    exact .idle
  | write e => exact h.write_line hread e
  | keepalive e f =>
    show LineStep _ _ _ (F.view env (if s.closed e then s else _))
    split
    · exact .idle
    · rw [h.view_wire_append e f.2.1, Flow.ofFrame, frameEvent_keepalive, Option.bind_none,
        update_append_none]
      exact .idle
  | read e => exact h.read_line e
  | close e => exact .idle
  | reconfigure n routingTable sessions => exact .idle

/-- **The invariant is kept** by every step that respects the route. -/
theorem Flow.Inv.step {s : Mesh} (h : F.Inv env route s)
    (hread : ReadsBack env.crates env.fromReader) {a : MeshStep}
    (ha : a.Respects env F route.hops) : F.Inv env route (s.step env peer a) := by
  refine ⟨h.toUnderWay.step (Flow.sound_survives hread) ha.adds, ?_, ?_⟩
  · intro e he
    rw [h.toUnderWay.step_manager]
    cases a with
    | reconfigure n' routingTable sessions =>
      dsimp only
      by_cases hn : e.1 = n'
      · rw [hn, Function.update_self]
        exact ha e.2 (hn ▸ he)
      · rw [Function.update_of_ne hn]
        exact h.leadsTo e he
    | _ => exact h.leadsTo e he
  · intro p hp
    rw [(h.step_line hread ha).outside hp]
    exact h.outside p hp

/-- The invariant after a run, and what lies in the line. -/
theorem Flow.Inv.run {s : Mesh} (h : F.Inv env route s)
    (hread : ReadsBack env.crates env.fromReader) {steps : List MeshStep}
    (hsteps : ∀ a ∈ steps, a.Respects env F route.hops) :
    F.Inv env route (steps.foldl (Mesh.step env peer) s) ∧
      inLine route.line (F.view env (steps.foldl (Mesh.step env peer) s))
        = inLine route.line (F.view env s) ++ steps.filterMap F.submitted := by
  induction steps generalizing s with
  | nil => exact ⟨h, (List.append_nil _).symm⟩
  | cons a steps ih =>
    have ha := hsteps a (List.mem_cons_self ..)
    obtain ⟨hinv, hline⟩ := ih (h.step hread ha) fun b hb => hsteps b (List.mem_cons_of_mem _ hb)
    refine ⟨hinv, ?_⟩
    rw [List.foldl_cons, hline, (h.step_line hread ha).inLine route.nodup_line,
      List.append_assoc, filterMap_cons_toList]

end Steps

/-- The messages of the flow that a node's service has been handed. -/
def Flow.handed (F : Flow) (s : Mesh) (n : NodeId) : List MessageContents :=
  (s.delivered n).filterMap fun i => F.ofOutbound i.forwarded

/-- None of the flow's messages is under way on the route. -/
def Flow.Idle (env : SessionEnv) (F : Flow) {peer : SessionEnd → NodeId}
    (route : Route peer F.src F.dst) (s : Mesh) : Prop :=
  ∀ p ∈ route.line, p ≠ .delivered F.dst → F.view env s p = []

section Run

variable {env : SessionEnv} {F : Flow} {peer : SessionEnd → NodeId}
  {route : Route peer F.src F.dst}

/-- What the destination has been handed, by the queues of the line. -/
theorem Flow.handed_of_line {s : Mesh} (h : F.Inv env route s) :
    F.handed s F.dst <+: inLine route.line (F.view env s) ∧
      (F.Idle env route s → F.handed s F.dst = inLine route.line (F.view env s)) ∧
      ∀ n, n ≠ F.dst → F.handed s n = [] := by
  have hlast : route.line.getLast? = some (.delivered F.dst) := lineFrom_getLast? route.leads
  have hinitial : F.view env s (.delivered F.dst) <+: inLine route.line (F.view env s) :=
    last_prefix hlast
  refine ⟨hinitial, fun hidle => last_eq hlast hidle route.nodup_line, ?_⟩
  intro n hn
  refine h.outside (.delivered n) fun hmem => ?_
  rcases mem_lineFrom route.leads hmem with hp | ⟨e, -, hp | hp⟩ | ⟨m, -, hp⟩ | hp
  · exact absurd hp (by simp)
  · exact absurd hp (by simp)
  · exact absurd hp (by simp)
  · exact absurd hp (by simp)
  · exact hn (Place.delivered.inj hp)

/-- From the start on, what lies in the line is what has been submitted. -/
theorem Flow.Inv.ofRun (hread : ReadsBack env.crates env.fromReader)
    {manager : NodeId → SessionManager} (hlocal : ∀ n, (manager n).localNodeId = n)
    (hleads : ∀ e ∈ route.hops, F.LeadsTo (manager e.1) e.2) {steps : List MeshStep}
    (hsteps : ∀ a ∈ steps, a.Respects env F route.hops) :
    F.Inv env route (Mesh.run env peer manager steps) ∧
      inLine route.line (F.view env (Mesh.run env peer manager steps))
        = steps.filterMap F.submitted := by
  have hstart : F.Inv env route (.start manager) := .start hlocal hleads
  obtain ⟨hinv, hline⟩ := hstart.run hread hsteps
  have hempty : inLine route.line (F.view env (.start manager)) = [] := by
    refine inLine_eq_nil fun p _ => ?_
    cases p with
    | wire e =>
      show (framesOn (framing.concat [])).filterMap (F.ofFrame env) = []
      rw [framesOn_concat (by simp)]
      rfl
    | _ => rfl
  rw [hempty, List.nil_append] at hline
  exact ⟨hinv, hline⟩

/-- **A flow arrives in order, once and unchanged.** In every run of a mesh in which the
messages of a flow are clean and the nodes on a path keep their routes and sessions for it,
the destination has been handed an initial part of what the source submitted, in that order;
all of it when nothing of the flow is under way; and no other node has been handed any of
it. -/
theorem flow_in_order (env : SessionEnv) (F : Flow) {peer : SessionEnd → NodeId}
    (route : Route peer F.src F.dst) (hread : ReadsBack env.crates env.fromReader)
    {manager : NodeId → SessionManager} (hlocal : ∀ n, (manager n).localNodeId = n)
    (hleads : ∀ e ∈ route.hops, F.LeadsTo (manager e.1) e.2) (steps : List MeshStep)
    (hsteps : ∀ a ∈ steps, a.Respects env F route.hops) :
    F.handed (Mesh.run env peer manager steps) F.dst <+: steps.filterMap F.submitted ∧
      (F.Idle env route (Mesh.run env peer manager steps) →
        F.handed (Mesh.run env peer manager steps) F.dst = steps.filterMap F.submitted) ∧
      ∀ n, n ≠ F.dst → F.handed (Mesh.run env peer manager steps) n = [] := by
  obtain ⟨hinv, hline⟩ : F.Inv env route _ ∧ inLine route.line _ = _ :=
    Flow.Inv.ofRun hread hlocal hleads hsteps
  obtain ⟨hinitial, hidle, helse⟩ := Flow.handed_of_line hinv
  rw [hline] at hinitial hidle
  exact ⟨hinitial, hidle, helse⟩

end Run

/-- Nodes 1 and 2 lead to node 3. -/
def lineManager (n : NodeId) : SessionManager := loopManager n (n + 1)

/-- Over its one session, every node reaches the next. -/
def linePeer (e : SessionEnd) : NodeId := e.1 + 1

/-- From node 1 over node 2 to node 3. -/
def lineRoute : Route linePeer 1 3 where
  hops := [(1, 0), (2, 0)]
  leads := ⟨rfl, rfl, rfl⟩
  nodup := by decide

/-- A session that reads metadata with the one header `k`. -/
def lineEnv : SessionEnv :=
  { exampleEnv none with crates := oneHeaderCrates, fromReader := oneHeaderReader }

theorem line_leadsTo (corrId : UInt64) :
    ∀ e ∈ lineRoute.hops, Flow.LeadsTo ⟨1, 3, corrId⟩ (lineManager e.1) e.2 := by
  have hleads : ∀ n : NodeId, 3 ≠ n → Flow.LeadsTo ⟨1, 3, corrId⟩ (lineManager n) 0 :=
    fun n hn => ⟨_, RoutingTable.decide_single hn (by decide : (64 : UInt8) ≠ 0)
      (AList.lookup_insert _), AList.lookup_insert _⟩
  intro e he
  rcases List.mem_pair.mp he with rfl | rfl
  · exact hleads 1 (by decide)
  · exact hleads 2 (by decide)

/-- A message for node 3 on its way. -/
theorem flow_in_order_greeting :
    Flow.handed ⟨1, 3, 9⟩ (Mesh.run lineEnv linePeer lineManager
        [.submit 1 greeting, .handleOutbound 1, .write (1, 0), .read (1, 0), .handleEvent 2]) 3
      <+: [contents greeting] := by
  have hclean : Clean lineEnv greeting := by
    obtain ⟨bytes, hbytes⟩ := exists_of_isOk
      (by decide +kernel : (buildDataFrame oneHeaderCrates greeting).isOk = true)
    exact ⟨rfl, rfl, by decide, bytes, hbytes⟩
  refine (flow_in_order lineEnv ⟨1, 3, 9⟩ lineRoute oneHeader_readsBack (fun _ => rfl)
    (line_leadsTo 9)
    [.submit 1 greeting, .handleOutbound 1, .write (1, 0), .read (1, 0), .handleEvent 2] ?_).1
  intro a ha
  rw [List.mem_cons] at ha
  rcases ha with rfl | ha
  · exact ⟨rfl, fun _ => hclean⟩
  · simp only [List.mem_cons, List.not_mem_nil, or_false] at ha
    rcases ha with rfl | rfl | rfl | rfl <;> trivial

end MeshCore.Network
