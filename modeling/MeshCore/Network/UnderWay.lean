import MeshCore.Network.Mesh

/-!
# What is under way

A message that is submitted goes through queues and sockets until it is delivered, dropped
or lost with a session. `UnderWay` says that all messages on their way satisfy a property;
every step keeps it, if the property survives a hop over a socket (`UnderWay.step`). What
has been written stays on its way until it is read (`UnderWay.wire_step`).
-/

namespace MeshCore.Network

open MeshCore.Lib MeshCore.Wire MeshCore.Session
open MeshCore.Topology (NodeId)
open MeshCore.Routing

/-- The events of a mesh are messages, which satisfy `P`, and topology. -/
def EventOf (P : OutboundMessage → Prop) : SessionEvent → Prop
  | .messageReceived i => P i.forwarded
  | .topologyUpdate _ => True
  | .topologyRequest _ => True
  | _ => False

/-- Every message under way satisfies `P`, and every manager has the ID of its node. -/
structure UnderWay (env : SessionEnv) (P : OutboundMessage → Prop) (s : Mesh) : Prop where
  localNode : ∀ n, (s.manager n).localNodeId = n
  outbound : ∀ n, ∀ m ∈ s.outbound n, P m
  events : ∀ n, ∀ ev ∈ s.events n, EventOf P ev
  queue : ∀ e, ∀ m ∈ s.queue e, P m
  wire : ∀ e, ∃ frames, s.wire e = framing.concat frames ∧
    ∀ f ∈ frames, f.WellFormed ∧ ∀ ev, frameEvent env f = some ev → EventOf P ev

/-- What holds of a message that is written holds of the message that is read. -/
def SurvivesHop (env : SessionEnv) (P : OutboundMessage → Prop) : Prop :=
  ∀ m metaRaw, P m → m.isTerminationMessage = false →
    MetaBuilder.build env.crates ⟨m.metaMap⟩ = .ok metaRaw →
    ∀ i, frameEvent env (m.frame metaRaw) = some (.messageReceived i) → P i.forwarded

/-- The messages that a step adds satisfy `P`. -/
def MeshStep.Adds (P : OutboundMessage → Prop) : MeshStep → Prop
  | .submit _ m => P m
  | .control _ m => P m.1
  | _ => True

/-- What a session writes is a frame of the message. -/
theorem sessionWrites_eq_some {crates : Crates} {m : OutboundMessage} {bytes : Bytes}
    (h : sessionWrites crates m = some bytes) :
    m.isTerminationMessage = false ∧ ∃ metaRaw, buildDataFrame crates m = .ok bytes ∧
      MetaBuilder.build crates ⟨m.metaMap⟩ = .ok metaRaw ∧ bytes = (m.frame metaRaw).bytes ∧
      (m.frame metaRaw).WellFormed := by
  unfold sessionWrites at h
  split at h
  next => exact absurd h (by simp)
  next hterm =>
    refine ⟨Bool.eq_false_iff.mpr hterm, ?_⟩
    split at h
    next bytes' hbuild =>
      obtain rfl : bytes' = bytes := Option.some.inj h
      obtain ⟨metaRaw, hmeta, hdecode⟩ := decode_buildDataFrame hbuild
      obtain ⟨hbytes, hshape, -⟩ := FrameDecoder.decode_eq_some.mp hdecode
      rw [List.append_nil] at hbytes
      refine ⟨metaRaw, hbuild, hmeta, hbytes, hshape, ?_⟩
      rw [buildDataFrame_eq, hmeta] at hbuild
      dsimp only at hbuild
      split at hbuild
      next => exact absurd hbuild (by simp)
      next hsize => exact Nat.le_trans (Nat.not_lt.mp hsize) (by decide)
    next => exact absurd h (by simp)

theorem concat_singleton_frame (f : Frame) : framing.concat [f] = f.bytes := by
  rw [Framing.concat_cons, Framing.concat_nil, List.append_nil]
  rfl

theorem frameType_cases (m : OutboundMessage) :
    m.frameType = .data ∨ m.frameType = .topologyUpdate := by
  unfold OutboundMessage.frameType
  split
  · exact .inr rfl
  · exact .inl rfl

/-- The message that is read is the one of the frame, which is a DATA frame. -/
theorem message_of_frame {env : SessionEnv} {m : OutboundMessage} {metaRaw : Bytes}
    {i : InboundMessage} (h : frameEvent env (m.frame metaRaw) = some (.messageReceived i)) :
    m.frameType = .data ∧ inboundOfFrame env.fromReader (m.frame metaRaw) = i := by
  unfold frameEvent at h
  rw [show (m.frame metaRaw).fast.typ = m.frameType from rfl] at h
  rcases frameType_cases m with hdata | htopology
  · rw [hdata] at h
    exact ⟨hdata, SessionEvent.messageReceived.inj (Option.some.inj h)⟩
  · rw [htopology] at h
    obtain ⟨update, -, hupdate⟩ := Option.map_eq_some_iff.mp h
    exact absurd hupdate (by simp)

section Steps

variable {env : SessionEnv} {P : OutboundMessage → Prop} {peer : SessionEnd → NodeId}

/-- The events of a frame: a message, or topology. -/
theorem eventOf_frame {f : Frame} {ev : SessionEvent} (hev : frameEvent env f = some ev)
    (hmessage : ∀ i, frameEvent env f = some (.messageReceived i) → P i.forwarded) :
    EventOf P ev := by
  cases ev with
  | messageReceived i => exact hmessage i hev
  | topologyUpdate update => trivial
  | topologyRequest request => trivial
  | _ =>
    unfold frameEvent at hev
    split at hev
    · simp at hev
    · simp at hev
    · simp at hev
    · simp at hev

/-- What a manager makes of a message is no other message. -/
theorem UnderWay.handle {s : Mesh} (h : UnderWay env P s) {mgr : SessionManager}
    {n : NodeId} (hlocal : mgr.localNodeId = n) {m : OutboundMessage} (hm : P m) :
    UnderWay env P ((mgr.handleOutboundMessage m).foldl (Mesh.perform n) s) := by
  have hdelivered : UnderWay env P { s with delivered := push s.delivered n m.delivered } :=
    ⟨h.localNode, h.outbound, h.events, h.queue, h.wire⟩
  rw [Mesh.perform_handleOutboundMessage hlocal]
  split
  · exact hdelivered
  split
  · split
    · exact ⟨h.localNode, h.outbound, h.events, forall_mem_push h.queue _ hm, h.wire⟩
    · exact h
  · exact hdelivered
  · exact h

/-- The other events of a mesh only leave the queue. -/
theorem step_handleEvent_other {s : Mesh} {n : NodeId} {ev : SessionEvent}
    {rest : List SessionEvent} (hevents : s.events n = ev :: rest) (hev : EventOf P ev)
    (hother : ∀ i, ev ≠ .messageReceived i) :
    s.step env peer (.handleEvent n) = { s with events := Function.update s.events n rest } := by
  have hsame : Function.update s.manager n (s.manager n) = s.manager := Function.update_eq_self ..
  unfold Mesh.step
  dsimp only
  rw [hevents]
  unfold SessionManager.handleSessionEvent
  dsimp only
  cases ev with
  | messageReceived i => exact absurd rfl (hother i)
  | topologyUpdate update =>
    dsimp only
    rw [hsame]
    rfl
  | topologyRequest request =>
    dsimp only
    rw [hsame]
    rfl
  | _ => exact absurd hev id

theorem UnderWay.start {manager : NodeId → SessionManager}
    (hlocal : ∀ n, (manager n).localNodeId = n) : UnderWay env P (.start manager) where
  localNode := hlocal
  outbound _ _ h := absurd h List.not_mem_nil
  events _ _ h := absurd h List.not_mem_nil
  queue _ _ h := absurd h List.not_mem_nil
  wire _ := ⟨[], rfl, fun _ h => absurd h List.not_mem_nil⟩

/-- The frames on a socket, with one more. -/
theorem UnderWay.wire_append {s : Mesh} (h : UnderWay env P s) (e : SessionEnd) {f : Frame}
    (hf : f.WellFormed) (hev : ∀ ev, frameEvent env f = some ev → EventOf P ev) :
    ∀ e', ∃ frames,
      Function.update s.wire e (s.wire e ++ f.bytes) e' = framing.concat frames ∧
      ∀ g ∈ frames, g.WellFormed ∧ ∀ ev, frameEvent env g = some ev → EventOf P ev := by
  refine (Function.forall_update_iff s.wire fun _ bytes => ∃ frames,
    bytes = framing.concat frames ∧ ∀ g ∈ frames, g.WellFormed ∧
      ∀ ev, frameEvent env g = some ev → EventOf P ev).mpr ⟨?_, fun e' _ => h.wire e'⟩
  obtain ⟨frames, hwire, hframes⟩ := h.wire e
  refine ⟨frames ++ [f], ?_, ?_⟩
  · rw [Framing.concat_append, concat_singleton_frame, hwire]
  · intro g hg
    rcases List.mem_append.mp hg with hg | hg
    · exact hframes g hg
    · rw [List.mem_singleton.mp hg]
      exact ⟨hf, hev⟩

theorem perform_manager {mgr : SessionManager} {n : NodeId} (hlocal : mgr.localNodeId = n)
    (s : Mesh) (m : OutboundMessage) :
    ((mgr.handleOutboundMessage m).foldl (Mesh.perform n) s).manager = s.manager := by
  rw [Mesh.perform_handleOutboundMessage hlocal]
  split
  · rfl
  split
  · split <;> rfl
  · rfl
  · rfl

/-- Only a reconfiguration changes the managers. -/
theorem UnderWay.step_manager {s : Mesh} (h : UnderWay env P s) (a : MeshStep) :
    (s.step env peer a).manager
      = match a with
        | .reconfigure n routingTable sessions =>
          Function.update s.manager n { localNodeId := n, routingTable, sessions }
        | _ => s.manager := by
  cases a with
  | handleOutbound n =>
    cases houtbound : s.outbound n with
    | nil => rw [step_idle (.inl ⟨n, rfl, houtbound⟩)]
    | cons m rest =>
      rw [step_handleOutbound houtbound]
      exact perform_manager (h.localNode n) _ m
  | handleEvent n =>
    cases hevents : s.events n with
    | nil => rw [step_idle (.inr (.inl ⟨n, rfl, hevents⟩))]
    | cons ev rest =>
      by_cases hmessage : ∃ i, ev = .messageReceived i
      · obtain ⟨i, rfl⟩ := hmessage
        rw [step_handleEvent_message hevents]
        exact perform_manager (h.localNode n) _ _
      · rw [step_handleEvent_other hevents (h.events n ev (hevents ▸ List.mem_cons_self ..))
          fun i hi => hmessage ⟨i, hi⟩]
  | write e =>
    unfold Mesh.step
    dsimp only
    split
    · rfl
    split
    · rfl
    split <;> rfl
  | keepalive e f =>
    unfold Mesh.step
    dsimp only
    split <;> rfl
  | read e =>
    unfold Mesh.step
    dsimp only
    split <;> rfl
  | _ => rfl

/-- A session takes a message from its channel and writes it. -/
theorem UnderWay.write {s : Mesh} (h : UnderWay env P s) (hhop : SurvivesHop env P)
    (e : SessionEnd) : UnderWay env P (s.step env peer (.write e)) := by
  cases hclosed : s.closed e with
  | true =>
    rw [step_idle (.inr (.inr (.inl ⟨e, rfl, .inl hclosed⟩)))]
    exact h
  | false =>
    cases hqueue : s.queue e with
    | nil =>
      rw [step_idle (.inr (.inr (.inl ⟨e, rfl, .inr hqueue⟩)))]
      exact h
    | cons m rest =>
      have hm : P m := h.queue e m (hqueue ▸ List.mem_cons_self ..)
      have hrest := forall_mem_rest h.queue hqueue
      rw [step_write hclosed hqueue]
      split
      next => exact ⟨h.localNode, h.outbound, h.events, hrest, h.wire⟩
      next hterm =>
        refine ⟨h.localNode, h.outbound, h.events, hrest, ?_⟩
        dsimp only
        cases hwrites : sessionWrites env.crates m with
        | none =>
          rw [Option.getD_none, List.append_nil, Function.update_eq_self]
          exact h.wire
        | some bytes =>
          obtain ⟨hterm, metaRaw, -, hmeta, rfl, hwf⟩ := sessionWrites_eq_some hwrites
          exact h.wire_append e hwf fun ev hev =>
            eventOf_frame hev fun i hi => hhop m metaRaw hm hterm hmeta i hi

/-- A session reads a frame from its socket. -/
theorem UnderWay.read {s : Mesh} (h : UnderWay env P s) (e : SessionEnd) :
    UnderWay env P (s.step env peer (.read e)) := by
  obtain ⟨frames, hwire, hframes⟩ := h.wire e
  cases frames with
  | nil =>
    rw [step_idle (.inr (.inr (.inr ⟨e, rfl, hwire⟩)))]
    exact h
  | cons f frames =>
    obtain ⟨hf, hev⟩ := hframes f (List.mem_cons_self ..)
    rw [step_read hf hwire]
    refine ⟨h.localNode, h.outbound, ?_, h.queue, ?_⟩
    · exact forall_mem_append h.events _ fun ev hmem => hev ev (Option.mem_toList.mp hmem)
    · refine (Function.forall_update_iff s.wire fun _ bytes => ∃ frames,
        bytes = framing.concat frames ∧ ∀ g ∈ frames, g.WellFormed ∧
          ∀ ev, frameEvent env g = some ev → EventOf P ev).mpr
        ⟨⟨frames, rfl, fun g hg => hframes g (List.mem_cons_of_mem _ hg)⟩, fun e' _ => h.wire e'⟩

/-- **What every message under way satisfies** is kept by every step, if it survives a hop
over a socket and holds of the messages a step adds. -/
theorem UnderWay.step {s : Mesh} (h : UnderWay env P s) (hhop : SurvivesHop env P) {a : MeshStep}
    (ha : a.Adds P) : UnderWay env P (s.step env peer a) := by
  cases a with
  | submit n m =>
    exact ⟨h.localNode, forall_mem_push h.outbound n ha, h.events, h.queue, h.wire⟩
  | handleOutbound n =>
    cases houtbound : s.outbound n with
    | nil =>
      rw [step_idle (.inl ⟨n, rfl, houtbound⟩)]
      exact h
    | cons m rest =>
      have hm : P m := h.outbound n m (houtbound ▸ List.mem_cons_self ..)
      have hrest : UnderWay env P { s with outbound := Function.update s.outbound n rest } :=
        ⟨h.localNode, forall_mem_rest h.outbound houtbound, h.events, h.queue, h.wire⟩
      rw [step_handleOutbound houtbound]
      exact hrest.handle (h.localNode n) hm
  | handleEvent n =>
    cases hevents : s.events n with
    | nil =>
      rw [step_idle (.inr (.inl ⟨n, rfl, hevents⟩))]
      exact h
    | cons ev rest =>
      have hev : EventOf P ev := h.events n ev (hevents ▸ List.mem_cons_self ..)
      have hrest : UnderWay env P { s with events := Function.update s.events n rest } :=
        ⟨h.localNode, h.outbound, forall_mem_rest h.events hevents, h.queue, h.wire⟩
      by_cases hmessage : ∃ i, ev = .messageReceived i
      · obtain ⟨i, rfl⟩ := hmessage
        rw [step_handleEvent_message hevents]
        exact hrest.handle (h.localNode n) hev
      · rw [step_handleEvent_other hevents hev fun i hi => hmessage ⟨i, hi⟩]
        exact hrest
  | control e m =>
    exact ⟨h.localNode, h.outbound, h.events, forall_mem_push h.queue e ha, h.wire⟩
  | write e => exact h.write hhop e
  | keepalive e f =>
    unfold Mesh.step
    dsimp only
    split
    · exact h
    · refine ⟨h.localNode, h.outbound, h.events, h.queue, h.wire_append e f.2.1 ?_⟩
      intro ev hev
      rw [frameEvent_keepalive] at hev
      exact absurd hev (by simp)
  | read e => exact h.read e
  | close e => exact ⟨h.localNode, h.outbound, h.events, h.queue, h.wire⟩
  | reconfigure n routingTable sessions =>
    refine ⟨?_, h.outbound, h.events, h.queue, h.wire⟩
    exact (Function.forall_update_iff s.manager fun n mgr => mgr.localNodeId = n).mpr
      ⟨rfl, fun n _ => h.localNode n⟩

/-! ## What is delivered -/

/-- Every message under way or delivered satisfies `P`. -/
structure Carried (env : SessionEnv) (P : OutboundMessage → Prop) (s : Mesh) : Prop
    extends UnderWay env P s where
  delivered : ∀ n, ∀ i ∈ s.delivered n, P i.forwarded

theorem Carried.mono {Q : OutboundMessage → Prop} {s : Mesh} (h : Carried env P s)
    (himp : ∀ m, P m → Q m) : Carried env Q s := by
  have hevent : ∀ ev, EventOf P ev → EventOf Q ev := by
    intro ev hev
    cases ev with
    | messageReceived i => exact himp _ hev
    | _ => exact hev
  refine ⟨⟨h.localNode, fun n m hm => himp m (h.outbound n m hm),
    fun n ev hev => hevent ev (h.events n ev hev), fun e m hm => himp m (h.queue e m hm), ?_⟩,
    fun n i hi => himp _ (h.delivered n i hi)⟩
  intro e
  obtain ⟨frames, hwire, hframes⟩ := h.wire e
  exact ⟨frames, hwire, fun f hf =>
    ⟨(hframes f hf).1, fun ev hev => hevent ev ((hframes f hf).2 ev hev)⟩⟩

theorem Carried.start {manager : NodeId → SessionManager}
    (hlocal : ∀ n, (manager n).localNodeId = n) : Carried env P (.start manager) where
  toUnderWay := .start hlocal
  delivered _ _ h := absurd h List.not_mem_nil

/-- A manager delivers the message it handles, or nothing. -/
theorem delivered_perform {mgr : SessionManager} {n : NodeId} (hlocal : mgr.localNodeId = n)
    (s : Mesh) (m : OutboundMessage) :
    ((mgr.handleOutboundMessage m).foldl (Mesh.perform n) s).delivered = s.delivered ∨
      ((mgr.handleOutboundMessage m).foldl (Mesh.perform n) s).delivered
        = push s.delivered n m.delivered := by
  rw [Mesh.perform_handleOutboundMessage hlocal]
  split
  · exact .inr rfl
  split
  · split
    · exact .inl rfl
    · exact .inl rfl
  · exact .inr rfl
  · exact .inl rfl

/-- A step delivers a message that was under way, or nothing. -/
theorem delivered_step (peer : SessionEnd → NodeId) {s : Mesh} (h : UnderWay env P s)
    (a : MeshStep) :
    (s.step env peer a).delivered = s.delivered ∨
      ∃ n m, P m ∧ (s.step env peer a).delivered = push s.delivered n m.delivered := by
  cases a with
  | handleOutbound n =>
    cases houtbound : s.outbound n with
    | nil =>
      rw [step_idle (.inl ⟨n, rfl, houtbound⟩)]
      exact .inl rfl
    | cons m rest =>
      rw [step_handleOutbound houtbound]
      refine (delivered_perform (h.localNode n) _ m).imp id fun hdelivered => ⟨n, m, ?_, hdelivered⟩
      exact h.outbound n m (houtbound ▸ List.mem_cons_self ..)
  | handleEvent n =>
    cases hevents : s.events n with
    | nil =>
      rw [step_idle (.inr (.inl ⟨n, rfl, hevents⟩))]
      exact .inl rfl
    | cons ev rest =>
      have hev := h.events n ev (hevents ▸ List.mem_cons_self ..)
      by_cases hmessage : ∃ i, ev = .messageReceived i
      · obtain ⟨i, rfl⟩ := hmessage
        rw [step_handleEvent_message hevents]
        exact (delivered_perform (h.localNode n) _ _).imp id fun hdelivered =>
          ⟨n, i.forwarded, hev, hdelivered⟩
      · rw [step_handleEvent_other hevents hev fun i hi => hmessage ⟨i, hi⟩]
        exact .inl rfl
  | write e =>
    left
    unfold Mesh.step
    dsimp only
    split
    · rfl
    split
    · rfl
    split <;> rfl
  | keepalive e f =>
    left
    unfold Mesh.step
    dsimp only
    split <;> rfl
  | read e =>
    left
    unfold Mesh.step
    dsimp only
    split <;> rfl
  | _ => exact .inl rfl

/-- What holds of all that is under way holds of all that is delivered. -/
theorem Carried.step {s : Mesh} (h : Carried env P s) (hhop : SurvivesHop env P) {a : MeshStep}
    (ha : a.Adds P) : Carried env P (s.step env peer a) := by
  refine ⟨h.toUnderWay.step hhop ha, ?_⟩
  rcases delivered_step peer h.toUnderWay a with hsame | ⟨n, m, hm, hpush⟩
  · rw [hsame]
    exact h.delivered
  · rw [hpush]
    exact forall_mem_push h.delivered n hm

theorem Carried.run {s : Mesh} (h : Carried env P s) (hhop : SurvivesHop env P)
    {steps : List MeshStep} (hsteps : ∀ a ∈ steps, a.Adds P) :
    Carried env P (steps.foldl (Mesh.step env peer) s) := by
  induction steps generalizing s with
  | nil => exact h
  | cons a steps ih =>
    exact ih (h.step hhop (hsteps a (List.mem_cons_self ..))) fun b hb =>
      hsteps b (List.mem_cons_of_mem _ hb)

end Steps

/-! ## What is added -/

/-- What a manager makes of a message is added to channels, and to what is delivered. -/
structure Mesh.Grows (s s' : Mesh) : Prop where
  outbound : s'.outbound = s.outbound
  events : s'.events = s.events
  wire : s'.wire = s.wire
  closed : s'.closed = s.closed
  queue : ∀ e, s.queue e <+: s'.queue e
  delivered : ∀ n, s.delivered n <+: s'.delivered n

theorem Mesh.Grows.refl (s : Mesh) : s.Grows s :=
  ⟨rfl, rfl, rfl, rfl, fun _ => List.prefix_refl _, fun _ => List.prefix_refl _⟩

theorem prefix_update_append {ι α : Type} [DecidableEq ι] (f : ι → List α) (p : ι) (l : List α)
    (q : ι) : f q <+: Function.update f p (f p ++ l) q := by
  by_cases hq : q = p
  · rw [hq, Function.update_self]
    exact List.prefix_append _ _
  · rw [Function.update_of_ne hq]

theorem prefix_update_of_ne {ι α : Type} [DecidableEq ι] (f : ι → List α) {p q : ι} (hq : q ≠ p)
    (l : List α) : f q <+: Function.update f p l q := by
  rw [Function.update_of_ne hq]

theorem Mesh.grows_perform {mgr : SessionManager} {n : NodeId} (hlocal : mgr.localNodeId = n)
    (s : Mesh) (m : OutboundMessage) :
    s.Grows ((mgr.handleOutboundMessage m).foldl (Mesh.perform n) s) := by
  have hdelivered : s.Grows { s with delivered := push s.delivered n m.delivered } :=
    ⟨rfl, rfl, rfl, rfl, fun _ => List.prefix_refl _, prefix_update_append s.delivered n _⟩
  rw [Mesh.perform_handleOutboundMessage hlocal]
  split
  · exact hdelivered
  split
  · split
    next messageTx _ =>
      exact ⟨rfl, rfl, rfl, rfl, prefix_update_append s.queue (n, messageTx) _,
        fun _ => List.prefix_refl _⟩
    next => exact .refl s
  · exact hdelivered
  · exact .refl s

/-- What has been written stays there until it is read. -/
theorem UnderWay.wire_step {env : SessionEnv} {P : OutboundMessage → Prop}
    {peer : SessionEnd → NodeId} {s : Mesh} (h : UnderWay env P s) {a : MeshStep} {e : SessionEnd}
    (ha : a ≠ .read e) : s.wire e <+: (s.step env peer a).wire e := by
  cases a with
  | handleOutbound n =>
    cases houtbound : s.outbound n with
    | nil => rw [step_idle (.inl ⟨n, rfl, houtbound⟩)]
    | cons m rest =>
      rw [step_handleOutbound houtbound, (Mesh.grows_perform (h.localNode n) _ m).wire]
  | handleEvent n =>
    cases hevents : s.events n with
    | nil => rw [step_idle (.inr (.inl ⟨n, rfl, hevents⟩))]
    | cons ev rest =>
      by_cases hmessage : ∃ i, ev = .messageReceived i
      · obtain ⟨i, rfl⟩ := hmessage
        rw [step_handleEvent_message hevents,
          (Mesh.grows_perform (h.localNode n) _ i.forwarded).wire]
      · rw [step_handleEvent_other hevents (h.events n ev (hevents ▸ List.mem_cons_self ..))
          fun i hi => hmessage ⟨i, hi⟩]
  | write e' =>
    cases hclosed : s.closed e' with
    | true => rw [step_idle (.inr (.inr (.inl ⟨e', rfl, .inl hclosed⟩)))]
    | false =>
      cases hqueue : s.queue e' with
      | nil => rw [step_idle (.inr (.inr (.inl ⟨e', rfl, .inr hqueue⟩)))]
      | cons m rest =>
        rw [step_write hclosed hqueue]
        split
        · exact List.prefix_refl _
        · exact prefix_update_append s.wire e' _ e
  | keepalive e' f =>
    unfold Mesh.step
    dsimp only
    split
    · exact List.prefix_refl _
    · exact prefix_update_append s.wire e' _ e
  | read e' =>
    have hne : e ≠ e' := fun heq => ha (heq ▸ rfl)
    unfold Mesh.step
    dsimp only
    split
    · exact prefix_update_of_ne s.wire hne _
    · exact List.prefix_refl _
  | _ => exact List.prefix_refl _

end MeshCore.Network
