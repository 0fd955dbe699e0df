import MeshCore.Network.Reading

/-!
# Nothing gets stuck

As long as the sessions on a route are open, each part of the mesh can do its next piece of
work: a manager takes the next message, a session writes or reads the next frame. What is
taken from a place goes on to the next, and everything else only adds behind it
(`slots_served`, `slots_added`). So in every endless run in which the parts along the route
get their turn again and again, everything that is submitted is handed over in the end,
whatever else is sent (`flow_arrives`). A reader needs new bytes for its turn, which the
keepalives of the sessions bring.

Mirroring notes:
- Every channel of the source but that of the events is unbounded. A session that finds the
  events of its manager full waits with its frame, which is a turn it does not get.
-/

namespace MeshCore.Network

open MeshCore.Lib MeshCore.Wire MeshCore.Session
open MeshCore.Topology (NodeId)
open MeshCore.Routing

/-- The step that takes the next item of a place. -/
def Place.serve : Place → Option MeshStep
  | .outbound n => some (.handleOutbound n)
  | .events n => some (.handleEvent n)
  | .queue e => some (.write e)
  | .wire e => some (.read e)
  | .delivered _ => none

/-- What is at each place: messages of the flow, and others. -/
def Flow.slots (env : SessionEnv) (F : Flow) (s : Mesh) : Place → List (Option MessageContents)
  | .outbound n => (s.outbound n).map F.ofOutbound
  | .events n => (s.events n).map F.ofEvent
  | .queue e => (s.queue e).map F.ofOutbound
  | .wire e => (framesOn (s.wire e)).map (F.ofFrame env)
  | .delivered n => (s.delivered n).map fun i => F.ofOutbound i.forwarded

theorem Flow.reduceOption_slots (env : SessionEnv) (F : Flow) (s : Mesh) (p : Place) :
    (F.slots env s p).reduceOption = F.view env s p := by
  cases p with
  | _ => exact List.filterMap_map ..

section Slots

variable {env : SessionEnv} {F : Flow} {peer : SessionEnd → NodeId}
  {P : OutboundMessage → Prop}

theorem Mesh.Grows.slots {s s' : Mesh} (h : s.Grows s') (p : Place) :
    F.slots env s p <+: F.slots env s' p := by
  cases p with
  | outbound n => exact (h.outbound ▸ List.prefix_refl _ : s.outbound n <+: s'.outbound n).map _
  | events n => exact (h.events ▸ List.prefix_refl _ : s.events n <+: s'.events n).map _
  | queue e => exact (h.queue e).map _
  | wire e =>
    unfold Flow.slots
    rw [h.wire]
  | delivered n => exact (h.delivered n).map _

/-- **Serving a place takes its first slot.** -/
theorem UnderWay.slots_served {s : Mesh} (h : UnderWay env P s) {p : Place} {a : MeshStep}
    (hp : p.serve = some a) (hopen : ∀ e, p = .queue e → s.closed e = false) :
    F.slots env (s.step env peer a) p = (F.slots env s p).tail := by
  cases p with
  | outbound n =>
    obtain rfl : MeshStep.handleOutbound n = a := Option.some.inj hp
    cases houtbound : s.outbound n with
    | nil =>
      rw [step_idle (.inl ⟨n, rfl, houtbound⟩)]
      simp [Flow.slots, houtbound]
    | cons m rest =>
      rw [step_handleOutbound houtbound]
      unfold Flow.slots
      dsimp only
      rw [(Mesh.grows_perform (h.localNode n) _ m).outbound]
      simp [houtbound]
  | events n =>
    obtain rfl : MeshStep.handleEvent n = a := Option.some.inj hp
    cases hevents : s.events n with
    | nil =>
      rw [step_idle (.inr (.inl ⟨n, rfl, hevents⟩))]
      simp [Flow.slots, hevents]
    | cons ev rest =>
      unfold Flow.slots
      dsimp only
      by_cases hmessage : ∃ i, ev = .messageReceived i
      · obtain ⟨i, rfl⟩ := hmessage
        rw [step_handleEvent_message hevents,
          (Mesh.grows_perform (h.localNode n) _ i.forwarded).events]
        simp [hevents]
      · rw [step_handleEvent_other hevents (h.events n ev (hevents ▸ List.mem_cons_self ..))
          fun i hi => hmessage ⟨i, hi⟩]
        simp [hevents]
  | queue e =>
    obtain rfl : MeshStep.write e = a := Option.some.inj hp
    cases hqueue : s.queue e with
    | nil =>
      rw [step_idle (.inr (.inr (.inl ⟨e, rfl, .inr hqueue⟩)))]
      simp [Flow.slots, hqueue]
    | cons m rest =>
      rw [step_write (hopen e rfl) hqueue]
      split <;> simp [Flow.slots, hqueue]
  | wire e =>
    obtain rfl : MeshStep.read e = a := Option.some.inj hp
    obtain ⟨frames, hwire, hframes⟩ := h.wire e
    unfold Flow.slots
    dsimp only
    cases frames with
    | nil =>
      rw [step_idle (.inr (.inr (.inr ⟨e, rfl, hwire⟩))), hwire, framesOn_concat (by simp)]
      rfl
    | cons f frames =>
      have hwf : ∀ g ∈ f :: frames, g.WellFormed := fun g hg => (hframes g hg).1
      rw [step_read (hwf f (List.mem_cons_self ..)) hwire, hwire, framesOn_concat hwf]
      dsimp only
      rw [Function.update_self, framesOn_concat fun g hg => hwf g (List.mem_cons_of_mem _ hg)]
      rfl
  | delivered n => exact absurd hp (by simp [Place.serve])

/-- The frames on the sockets when one more is written. -/
theorem UnderWay.framesOn_append {s : Mesh} (h : UnderWay env P s) (e : SessionEnd) {f : Frame}
    (hf : f.WellFormed) (e' : SessionEnd) :
    framesOn (s.wire e') <+: framesOn (Function.update s.wire e (s.wire e ++ f.bytes) e') := by
  by_cases he : e' = e
  · obtain ⟨frames, hwire, hframes⟩ := h.wire e
    have hwf : ∀ g ∈ frames, g.WellFormed := fun g hg => (hframes g hg).1
    have hwf' : ∀ g ∈ frames ++ [f], g.WellFormed := by
      intro g hg
      rcases List.mem_append.mp hg with hg | hg
      · exact hwf g hg
      · rw [List.mem_singleton.mp hg]
        exact hf
    rw [he, Function.update_self, hwire, ← concat_singleton_frame, ← Framing.concat_append,
      framesOn_concat hwf, framesOn_concat hwf']
    exact List.prefix_append _ _
  · rw [Function.update_of_ne he]

/-- **Every other step only adds** to a place. -/
theorem UnderWay.slots_added {s : Mesh} (h : UnderWay env P s) {p : Place} {a : MeshStep}
    (hp : p.serve ≠ some a) : F.slots env s p <+: F.slots env (s.step env peer a) p := by
  cases a with
  | submit n m =>
    cases p with
    | outbound n' => exact (prefix_update_append s.outbound n [m] n').map _
    | _ => exact List.prefix_refl _
  | handleOutbound n =>
    cases houtbound : s.outbound n with
    | nil => rw [step_idle (.inl ⟨n, rfl, houtbound⟩)]
    | cons m rest =>
      rw [step_handleOutbound houtbound]
      refine List.IsPrefix.trans ?_ ((Mesh.grows_perform (h.localNode n) _ m).slots p)
      cases p with
      | outbound n' =>
        have hne : n' ≠ n := fun heq => hp (heq ▸ rfl)
        exact (prefix_update_of_ne s.outbound hne rest).map _
      | _ => exact List.prefix_refl _
  | handleEvent n =>
    cases hevents : s.events n with
    | nil => rw [step_idle (.inr (.inl ⟨n, rfl, hevents⟩))]
    | cons ev rest =>
      have hrest : F.slots env s p
          <+: F.slots env { s with events := Function.update s.events n rest } p := by
        cases p with
        | events n' =>
          have hne : n' ≠ n := fun heq => hp (heq ▸ rfl)
          exact (prefix_update_of_ne s.events hne rest).map _
        | _ => exact List.prefix_refl _
      by_cases hmessage : ∃ i, ev = .messageReceived i
      · obtain ⟨i, rfl⟩ := hmessage
        rw [step_handleEvent_message hevents]
        exact hrest.trans ((Mesh.grows_perform (h.localNode n) _ i.forwarded).slots p)
      · rw [step_handleEvent_other hevents (h.events n ev (hevents ▸ List.mem_cons_self ..))
          fun i hi => hmessage ⟨i, hi⟩]
        exact hrest
  | control e m =>
    cases p with
    | queue e' => exact (prefix_update_append s.queue e [m.1] e').map _
    | _ => exact List.prefix_refl _
  | write e =>
    cases hclosed : s.closed e with
    | true => rw [step_idle (.inr (.inr (.inl ⟨e, rfl, .inl hclosed⟩)))]
    | false =>
      cases hqueue : s.queue e with
      | nil => rw [step_idle (.inr (.inr (.inl ⟨e, rfl, .inr hqueue⟩)))]
      | cons m rest =>
        rw [step_write hclosed hqueue]
        have hrest : ∀ e', .queue e' = p → (s.queue e').map F.ofOutbound
            <+: (Function.update s.queue e rest e').map F.ofOutbound := by
          intro e' he'
          have hne : e' ≠ e := fun heq => hp (by rw [← he', heq]; rfl)
          exact (prefix_update_of_ne s.queue hne rest).map _
        split
        · cases p with
          | queue e' => exact hrest e' rfl
          | _ => exact List.prefix_refl _
        · cases p with
          | queue e' => exact hrest e' rfl
          | wire e' =>
            refine List.IsPrefix.map _ ?_
            dsimp only
            cases hwrites : sessionWrites env.crates m with
            | none =>
              rw [Option.getD_none, List.append_nil, Function.update_eq_self]
            | some bytes =>
              obtain ⟨-, metaRaw, -, -, rfl, hwf⟩ := sessionWrites_eq_some hwrites
              exact h.framesOn_append e hwf e'
          | _ => exact List.prefix_refl _
  | keepalive e f =>
    unfold Mesh.step
    dsimp only
    split
    · exact List.prefix_refl _
    · cases p with
      | wire e' => exact (h.framesOn_append e f.2.1 e').map _
      | _ => exact List.prefix_refl _
  | read e =>
    obtain ⟨frames, hwire, hframes⟩ := h.wire e
    cases frames with
    | nil => rw [step_idle (.inr (.inr (.inr ⟨e, rfl, hwire⟩)))]
    | cons f frames =>
      rw [step_read (hframes f (List.mem_cons_self ..)).1 hwire]
      cases p with
      | events n => exact (prefix_update_append s.events (peer e) _ n).map _
      | wire e' =>
        have hne : e' ≠ e := fun heq => hp (heq ▸ rfl)
        have hsame : s.wire e' = Function.update s.wire e (framing.concat frames) e' :=
          (Function.update_of_ne hne ..).symm
        unfold Flow.slots
        dsimp only
        rw [← hsame]
      | _ => exact List.prefix_refl _
  | _ => exact List.prefix_refl _

end Slots

/-! ## Sessions that stay open -/

/-- The step asks for the end of no session, and is not the end of one of these. -/
def MeshStep.Spares (hops : List SessionEnd) : MeshStep → Prop
  | .submit _ m => m.isTerminationMessage = false
  | .control _ m => m.1.isTerminationMessage = false
  | .close e => e ∉ hops
  | _ => True

section Spares

variable {env : SessionEnv} {peer : SessionEnd → NodeId}

theorem MeshStep.Spares.adds {hops : List SessionEnd} {a : MeshStep} (ha : a.Spares hops) :
    a.Adds (·.isTerminationMessage = false) := by
  cases a with
  | submit n m => exact ha
  | control e m => exact ha
  | _ => trivial

/-- A message that is read asks for no termination: no frame has the header for it. -/
theorem notTermination_survives (hread : ReadsBack env.crates env.fromReader) :
    SurvivesHop env (·.isTerminationMessage = false) := by
  intro m metaRaw _ _ hmeta i hi
  have hparse : parseMeta env.fromReader metaRaw = .ok m.metaMap :=
    parseMeta_build hread hmeta (metaMap_plain m) (metaMap_sorted m)
  unfold frameEvent at hi
  split at hi
  · obtain rfl := SessionEvent.messageReceived.inj (Option.some.inj hi)
    have hnone : (inboundOfFrame env.fromReader (m.frame metaRaw)).forwarded.headers.lookup
        "frame_type" = none := (readMeta_lookup hparse "frame_type").trans (if_pos (.inl rfl))
    unfold OutboundMessage.isTerminationMessage
    rw [hnone]
    exact Bool.and_false _
  · obtain ⟨_, _, h⟩ := Option.map_eq_some_iff.mp hi
    exact absurd h (by simp)
  · obtain ⟨_, _, h⟩ := Option.map_eq_some_iff.mp hi
    exact absurd h (by simp)
  · exact absurd hi (by simp)

/-- A session ends by its own step, or by a message that asks for it. -/
theorem UnderWay.step_closed {s : Mesh} (h : UnderWay env (·.isTerminationMessage = false) s)
    {hops : List SessionEnd} (hopen : ∀ e ∈ hops, s.closed e = false) {a : MeshStep}
    (ha : a.Spares hops) : ∀ e ∈ hops, (s.step env peer a).closed e = false := by
  intro e he
  cases a with
  | handleOutbound n =>
    cases houtbound : s.outbound n with
    | nil =>
      rw [step_idle (.inl ⟨n, rfl, houtbound⟩)]
      exact hopen e he
    | cons m rest =>
      rw [step_handleOutbound houtbound, (Mesh.grows_perform (h.localNode n) _ m).closed]
      exact hopen e he
  | handleEvent n =>
    cases hevents : s.events n with
    | nil =>
      rw [step_idle (.inr (.inl ⟨n, rfl, hevents⟩))]
      exact hopen e he
    | cons ev rest =>
      by_cases hmessage : ∃ i, ev = .messageReceived i
      · obtain ⟨i, rfl⟩ := hmessage
        rw [step_handleEvent_message hevents,
          (Mesh.grows_perform (h.localNode n) _ i.forwarded).closed]
        exact hopen e he
      · rw [step_handleEvent_other hevents (h.events n ev (hevents ▸ List.mem_cons_self ..))
          fun i hi => hmessage ⟨i, hi⟩]
        exact hopen e he
  | write e' =>
    cases hclosed : s.closed e' with
    | true =>
      rw [step_idle (.inr (.inr (.inl ⟨e', rfl, .inl hclosed⟩)))]
      exact hopen e he
    | false =>
      cases hqueue : s.queue e' with
      | nil =>
        rw [step_idle (.inr (.inr (.inl ⟨e', rfl, .inr hqueue⟩)))]
        exact hopen e he
      | cons m rest =>
        have hterm : m.isTerminationMessage = false :=
          h.queue e' m (hqueue ▸ List.mem_cons_self ..)
        rw [step_write hclosed hqueue, if_neg (by rw [hterm]; simp)]
        exact hopen e he
  | keepalive e' f =>
    unfold Mesh.step
    dsimp only
    split <;> exact hopen e he
  | read e' =>
    unfold Mesh.step
    dsimp only
    split <;> exact hopen e he
  | close e' =>
    have hne : e ≠ e' := fun heq => ha (heq ▸ he)
    show Function.update s.closed e' true e = false
    rw [Function.update_of_ne hne]
    exact hopen e he
  | _ => exact hopen e he

/-- **Sessions stay open** in every run in which nobody asks for the end of one. -/
theorem Mesh.run_closed (hread : ReadsBack env.crates env.fromReader)
    {manager : NodeId → SessionManager} (hlocal : ∀ n, (manager n).localNodeId = n)
    {hops : List SessionEnd} {steps : List MeshStep} (hsteps : ∀ a ∈ steps, a.Spares hops) :
    ∀ e ∈ hops, (Mesh.run env peer manager steps).closed e = false := by
  have hkept : ∀ s : Mesh, UnderWay env (·.isTerminationMessage = false) s →
      (∀ e ∈ hops, s.closed e = false) →
      ∀ e ∈ hops, (steps.foldl (Mesh.step env peer) s).closed e = false := by
    induction steps with
    | nil => exact fun s _ hopen => hopen
    | cons a steps ih =>
      intro s h hopen
      have ha := hsteps a (List.mem_cons_self ..)
      exact ih (fun b hb => hsteps b (List.mem_cons_of_mem _ hb)) _
        (h.step (notTermination_survives hread) ha.adds) (h.step_closed hopen ha)
  exact hkept _ (.start hlocal) fun _ _ => rfl

end Spares

/-! ## Endless runs -/

section Run

variable {env : SessionEnv} {F : Flow} {peer : SessionEnd → NodeId}
  {manager : NodeId → SessionManager} {turns : ℕ → Turn}

/-- Every place of a route but the last is served by a step. -/
theorem Route.serve_of_mem {route : Route peer F.src F.dst} {p : Place}
    (hp : p ∈ route.line.dropLast) : ∃ a, p.serve = some a := by
  cases p with
  | delivered n =>
    rcases mem_lineFrom route.leads (List.mem_of_mem_dropLast hp) with
      heq | ⟨e, -, heq | heq⟩ | ⟨m, -, heq⟩ | heq
    · exact absurd heq (by simp)
    · exact absurd heq (by simp)
    · exact absurd heq (by simp)
    · exact absurd heq (by simp)
    · -- the service of the destination is the last place
      obtain ⟨front, hline⟩ := List.getLast?_eq_some_iff.mp (lineFrom_getLast? route.leads)
      have hnd : (front ++ [Place.delivered F.dst]).Nodup := hline ▸ route.nodup_line
      have hfront : Place.delivered F.dst ∈ front := by
        have hdrop : route.line.dropLast = front := by
          rw [show route.line = front ++ [Place.delivered F.dst] from hline, List.dropLast_concat]
        rwa [hdrop, heq] at hp
      exact absurd rfl ((List.nodup_append.mp hnd).2.2 _ hfront _ (List.mem_singleton_self _))
  | _ => exact ⟨_, rfl⟩

/-- The channels of a route are those of its hops. -/
theorem Route.hop_of_queue {route : Route peer F.src F.dst} {e : SessionEnd}
    (he : .queue e ∈ route.line) : e ∈ route.hops := by
  rcases mem_lineFrom route.leads he with heq | ⟨e', he', heq | heq⟩ | ⟨m, -, heq⟩ | heq
  · exact absurd heq (by simp)
  · exact Place.queue.inj heq ▸ he'
  · exact absurd heq (by simp)
  · exact absurd heq (by simp)
  · exact absurd heq (by simp)

/-- And so are its sockets. -/
theorem Route.hop_of_wire {route : Route peer F.src F.dst} {e : SessionEnd}
    (he : .wire e ∈ route.line) : e ∈ route.hops := by
  rcases mem_lineFrom route.leads he with heq | ⟨e', he', heq | heq⟩ | ⟨m, -, heq⟩ | heq
  · exact absurd heq (by simp)
  · exact absurd heq (by simp)
  · exact Place.wire.inj heq ▸ he'
  · exact absurd heq (by simp)
  · exact absurd heq (by simp)

/-- The message of the flow that a turn submits. -/
def Flow.submittedUntil (F : Flow) (turns : ℕ → Turn) (t : ℕ) : List MessageContents :=
  (List.range t).filterMap fun i => F.submitted (turns i).step

/-- Reads submit nothing, whether or not a frame comes of them. -/
theorem Flow.submitted_acts (F : Flow) (s : ReadingMesh) (turn : Turn) :
    (s.acts turn).bind F.submitted = F.submitted turn.step := by
  by_cases hread : ∃ e, turn.step = .read e
  · obtain ⟨e, he⟩ := hread
    cases hacts : s.acts turn with
    | none =>
      rw [he]
      rfl
    | some a =>
      rw [ReadingMesh.eq_of_acts hacts]
      rfl
  · rw [ReadingMesh.acts_of_ne_read fun e he => hread ⟨e, he⟩]
    rfl

theorem Flow.submitted_stepsUntil (F : Flow) (env : SessionEnv) (peer : SessionEnd → NodeId)
    (manager : NodeId → SessionManager) (turns : ℕ → Turn) (t : ℕ) :
    (ReadingMesh.stepsUntil env peer manager turns t).filterMap F.submitted
      = F.submittedUntil turns t := by
  unfold ReadingMesh.stepsUntil Flow.submittedUntil
  rw [List.filterMap_filterMap]
  exact List.filterMap_congr fun i _ => F.submitted_acts _ _

/-- Along the route, a run of turns is a run of a fair line: a place is served by the turns
that are its step. -/
theorem Flow.fairRun {route : Route peer F.src F.dst}
    (hread : ReadsBack env.crates env.fromReader)
    (hok : ∀ t, (ReadingMesh.runUntil env peer manager turns t).Ok env (F.Sound env))
    (hinv : ∀ t, F.Inv env route (ReadingMesh.runUntil env peer manager turns t).mesh)
    (hsteps : ∀ t, (turns t).step.Respects env F route.hops)
    (hopen : ∀ t, ∀ e ∈ route.hops,
      (ReadingMesh.runUntil env peer manager turns t).mesh.closed e = false)
    (hpings : ∀ e ∈ route.hops, ∀ t, ∃ t', t ≤ t' ∧ ∃ f, (turns t').step = .keepalive e f)
    (hfair : ∀ p ∈ route.line, ∀ a, p.serve = some a → ∀ t, ∃ t', t ≤ t' ∧ (turns t').step = a) :
    FairRun route.line
      (fun t => F.slots env (ReadingMesh.runUntil env peer manager turns t).mesh)
      (fun t => F.submitted (turns t).step)
      fun t p => ∃ a, (ReadingMesh.runUntil env peer manager turns t).acts (turns t) = some a ∧
        p.serve = some a := by
  refine ⟨?_, ?_, ?_, ?_⟩
  · intro t
    simp only [Flow.reduceOption_slots, ReadingMesh.runUntil_succ, (hok t).step_mesh]
    rw [← F.submitted_acts (ReadingMesh.runUntil env peer manager turns t)]
    cases hacts : (ReadingMesh.runUntil env peer manager turns t).acts (turns t) with
    | none => exact .idle
    | some a => exact (hinv t).step_line hread (ReadingMesh.eq_of_acts hacts ▸ hsteps t)
  · rintro t p hp ⟨a, hacts, hserve⟩
    rw [ReadingMesh.runUntil_succ, (hok t).step_mesh, hacts]
    exact (hinv t).slots_served hserve fun e heq => hopen t e (Route.hop_of_queue (heq ▸ hp))
  · intro t p _ hserve
    rw [ReadingMesh.runUntil_succ, (hok t).step_mesh]
    cases hacts : (ReadingMesh.runUntil env peer manager turns t).acts (turns t) with
    | none => exact List.prefix_refl _
    | some a => exact (hinv t).slots_added fun heq => hserve ⟨a, hacts, heq⟩
  · intro p hp t
    have hline := List.mem_of_mem_dropLast hp
    obtain ⟨a, ha⟩ := Route.serve_of_mem hp
    by_cases hwire : ∃ e, p = .wire e
    · obtain ⟨e, rfl⟩ := hwire
      have he := Route.hop_of_wire hline
      obtain ⟨t', htt', hacts⟩ := ReadingMesh.reads hok (fun t => hopen t e he) (hpings e he)
        (hfair _ hline _ rfl) t
      exact ⟨t', htt', _, hacts, rfl⟩
    · obtain ⟨t', htt', ht'⟩ := hfair p hline a ha t
      refine ⟨t', htt', a, ?_, ha⟩
      rw [ReadingMesh.acts_of_ne_read, ht']
      intro e he
      rw [ht'] at he
      subst he
      cases p with
      | wire e' => exact hwire ⟨e', rfl⟩
      | _ => exact absurd ha (by simp [Place.serve])

/-- **Everything that is submitted is handed over.** In every endless run of a mesh in which
the messages of a flow are clean, the nodes on a path keep their routes for it, and the
sessions there stay open and write their keepalives again and again, while each part along
the path gets its turn again and again: whatever has been submitted by some time, the
destination has been handed all of it at a later time. The turn of a reader is one read, of
any number of the bytes there are, and one call of the decoder. -/
theorem flow_arrives (env : SessionEnv) (F : Flow) {peer : SessionEnd → NodeId}
    (route : Route peer F.src F.dst) (hread : ReadsBack env.crates env.fromReader)
    {manager : NodeId → SessionManager} (hlocal : ∀ n, (manager n).localNodeId = n)
    (hleads : ∀ e ∈ route.hops, F.LeadsTo (manager e.1) e.2) (turns : ℕ → Turn)
    (hsteps : ∀ t, (turns t).step.Respects env F route.hops)
    (hopen : ∀ t, ∀ e ∈ route.hops,
      (ReadingMesh.runUntil env peer manager turns t).mesh.closed e = false)
    (hpings : ∀ e ∈ route.hops, ∀ t, ∃ t', t ≤ t' ∧ ∃ f, (turns t').step = .keepalive e f)
    (hfair : ∀ p ∈ route.line, ∀ a, p.serve = some a → ∀ t, ∃ t', t ≤ t' ∧ (turns t').step = a)
    (t : ℕ) :
    ∃ t', t ≤ t' ∧ F.submittedUntil turns t
      <+: F.handed (ReadingMesh.runUntil env peer manager turns t').mesh F.dst := by
  have hok : ∀ t, (ReadingMesh.runUntil env peer manager turns t).Ok env (F.Sound env) :=
    ReadingMesh.ok_runUntil hlocal (Flow.sound_survives hread) fun t => (hsteps t).adds
  have hruns : ∀ t, F.Inv env route (ReadingMesh.runUntil env peer manager turns t).mesh ∧
      inLine route.line (F.view env (ReadingMesh.runUntil env peer manager turns t).mesh)
        = F.submittedUntil turns t := by
    intro t
    rw [ReadingMesh.mesh_runUntil hok, ← F.submitted_stepsUntil env peer manager]
    refine Flow.Inv.ofRun hread hlocal hleads fun a ha => ?_
    obtain ⟨i, rfl⟩ := ReadingMesh.mem_stepsUntil ha
    exact hsteps i
  have hlast : route.line.getLast? = some (.delivered F.dst) := lineFrom_getLast? route.leads
  have hrun := Flow.fairRun hread hok (fun t => (hruns t).1) hsteps hopen hpings hfair
  obtain ⟨t', htt', hlength⟩ := hrun.arrives route.nodup_line hlast t
  refine ⟨t', htt', ?_⟩
  have hpassed : FairRun.passed
      (fun t => F.slots env (ReadingMesh.runUntil env peer manager turns t).mesh)
      route.line t = (F.submittedUntil turns t).length := by
    unfold FairRun.passed
    simp only [Flow.reduceOption_slots]
    rw [(hruns t).2]
  rw [hpassed, Flow.reduceOption_slots] at hlength
  -- both are initial parts of what has been submitted by the later time
  have hhanded := (Flow.handed_of_line (hruns t').1).1
  rw [(hruns t').2] at hhanded
  have hearlier : F.submittedUntil turns t <+: F.submittedUntil turns t' := by
    refine List.IsPrefix.filterMap _ ?_
    obtain ⟨d, rfl⟩ := Nat.exists_eq_add_of_le htt'
    rw [List.range_add]
    exact List.prefix_append _ _
  exact List.prefix_of_prefix_length_le hearlier hhanded hlength

end Run

/-- The parts along the line from node 1 to node 3, one after the other. The sessions write
their keepalives before the other ends read. -/
def lineTurns : List MeshStep :=
  [.handleOutbound 1, .write (1, 0),
    .keepalive (1, 0) ⟨helloFrame, helloFrame_wellFormed, .inl rfl⟩, .read (1, 0),
    .handleEvent 2, .write (2, 0),
    .keepalive (2, 0) ⟨helloFrame, helloFrame_wellFormed, .inl rfl⟩, .read (2, 0),
    .handleEvent 3]

/-- Node 1 sends one message; then each part gets its turn, round after round, and readers
are given up to 64 bytes. -/
def lineSchedule : ℕ → Turn
  | 0 => ⟨.submit 1 greeting, 0⟩
  | t + 1 => ⟨lineTurns.get ⟨t % 9, Nat.mod_lt t (by decide)⟩, 63⟩

theorem lineSchedule_succ (t : ℕ) : (lineSchedule (t + 1)).step ∈ lineTurns := List.get_mem ..

theorem lineSchedule_fair {a : MeshStep} (ha : a ∈ lineTurns) (t : ℕ) :
    ∃ t', t ≤ t' ∧ (lineSchedule t').step = a := by
  obtain ⟨i, rfl⟩ := List.mem_iff_get.mp ha
  refine ⟨9 * t + i + 1, by omega, congrArg lineTurns.get (Fin.ext ?_)⟩
  show (9 * t + i) % 9 = i
  rw [Nat.mul_add_mod]
  exact Nat.mod_eq_of_lt i.isLt

/-- The message arrives. -/
theorem flow_arrives_greeting : ∃ t', 1 ≤ t' ∧ [contents greeting] <+: Flow.handed ⟨1, 3, 9⟩
    (ReadingMesh.runUntil lineEnv linePeer lineManager lineSchedule t').mesh 3 := by
  have hclean : Clean lineEnv greeting := by
    obtain ⟨bytes, hbytes⟩ := exists_of_isOk
      (by decide +kernel : (buildDataFrame oneHeaderCrates greeting).isOk = true)
    exact ⟨rfl, rfl, by decide, bytes, hbytes⟩
  have hspares : ∀ t, (lineSchedule t).step.Spares lineRoute.hops := by
    intro t
    cases t with
    | zero => exact rfl
    | succ t =>
      have ht := lineSchedule_succ t
      simp only [lineTurns, List.mem_cons, List.not_mem_nil, or_false] at ht
      rcases ht with h | h | h | h | h | h | h | h | h <;> rw [h] <;> trivial
  refine flow_arrives lineEnv ⟨1, 3, 9⟩ lineRoute oneHeader_readsBack (fun _ => rfl)
    (line_leadsTo 9) lineSchedule ?_ ?_ ?_ ?_ 1
  · intro t
    cases t with
    | zero => exact ⟨rfl, fun _ => hclean⟩
    | succ t =>
      have ht := lineSchedule_succ t
      simp only [lineTurns, List.mem_cons, List.not_mem_nil, or_false] at ht
      rcases ht with h | h | h | h | h | h | h | h | h <;> rw [h] <;> trivial
  · intro t
    rw [ReadingMesh.mesh_runUntil (ReadingMesh.ok_runUntil (fun _ => rfl)
      (notTermination_survives oneHeader_readsBack) fun t => (hspares t).adds)]
    refine Mesh.run_closed oneHeader_readsBack (fun _ => rfl) fun a ha => ?_
    obtain ⟨i, rfl⟩ := ReadingMesh.mem_stepsUntil ha
    exact hspares i
  · intro e he t
    have hmem : ∃ f, .keepalive e f ∈ lineTurns := by
      rcases List.mem_pair.mp he with rfl | rfl
      · exact ⟨_, List.mem_of_getElem? (rfl : lineTurns[2]? = some _)⟩
      · exact ⟨_, List.mem_of_getElem? (rfl : lineTurns[6]? = some _)⟩
    obtain ⟨f, hf⟩ := hmem
    obtain ⟨t', htt', ht'⟩ := lineSchedule_fair hf t
    exact ⟨t', htt', f, ht'⟩
  · intro p hp a ha
    have hline : ∀ a ∈ lineRoute.line.filterMap Place.serve, a ∈ lineTurns := by
      intro a ha
      have hserve : lineRoute.line.filterMap Place.serve = [.handleOutbound 1, .write (1, 0),
          .read (1, 0), .handleEvent 2, .write (2, 0), .read (2, 0), .handleEvent 3] := rfl
      rw [hserve] at ha
      simp only [lineTurns, List.mem_cons, List.not_mem_nil, or_false] at ha ⊢
      tauto
    exact lineSchedule_fair (hline a (List.mem_filterMap.mpr ⟨p, hp, ha⟩))

end MeshCore.Network
