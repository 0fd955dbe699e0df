import MeshCore.Session.Manager

/-!
# One session, from its first HELLO to its end (`mesh-session/src/session.rs`)

`run_inbound_with_messages` sends a HELLO, runs its loop, and cleans up after
it: it takes its remote node out of the global registry and emits
`Disconnected`. A session does all this between `await`s, where other sessions
and the manager run and where an abort of its task takes effect, so it is
modelled as a machine with one step from `await` to `await`. The phase says
where the task stands.

A HELLO that passes the check sets the remote node, registers the session's
channel under it, and leaves the session in `notifying`; its `Connected` event
is a step of its own. A HELLO that fails it ends the function at once: `bail!`
is not followed by the cleanup, and neither is an abort.

`Effect` lists what a step can do to the remote node, the phase and the registry
and which of the two lifecycle events it emits; `step_effect` says that these
are all. Every result about sessions goes through it.

Mirroring notes:
- Setting the remote node and registering its channel is one step: nobody else
  sees the node ID, so an abort at the registry's lock leaves what an abort
  before the HELLO leaves.
- What a session writes to its socket is left out; whether a write succeeded is
  an argument of the step. So is the time, and what the clock gives as the
  correlation ID of a PING.
- The idle timeout may come at any time in the loop. Statistics are left out:
  they are only logged.
- `serde_cbor::from_slice` is a parameter, for each of the two types it reads.
- A session has message channels: `main` gives every session a pair.
-/

namespace MeshCore.Session

open MeshCore.Lib MeshCore.Wire
open MeshCore.Topology (NodeId TopologyUpdate)

/-! ## Keepalive -/

/-- `KeepaliveState`: the outstanding PINGs and when they were sent, in
nanoseconds. -/
structure KeepaliveState where
  outstanding : HashMap UInt64 Nat

namespace KeepaliveState

/-- Outstanding PINGs are forgotten after 60 seconds. -/
def cutoff : Nat := 60 * 1000000000

/-- `record_ping`. -/
def recordPing (k : KeepaliveState) (corrId : UInt64) (now : Nat) : KeepaliveState :=
  let outstanding := k.outstanding.insert corrId now
  { outstanding := HashMap.retain
      (fun id => (outstanding.lookup id).any fun sent => now < sent + cutoff) outstanding }

/-- `process_pong`: the round-trip time, and the state without the PING. -/
def processPong (k : KeepaliveState) (corrId : UInt64) (now : Nat) :
    Option (Nat × KeepaliveState) :=
  (k.outstanding.lookup corrId).map fun sent =>
    (now - sent, { outstanding := k.outstanding.erase corrId })

end KeepaliveState

/-! ## The machine -/

/-- Where a session's task stands. -/
inductive Phase where
  /-- Its HELLO is not sent yet. -/
  | greeting
  | looping
  /-- Its channel is registered, its `Connected` event not emitted. -/
  | notifying (verifiedNodeId : NodeId)
  /-- It has left its loop. -/
  | leaving
  /-- Its node is out of the registry, its `Disconnected` event not emitted. -/
  | unregistered
  | ended
  deriving DecidableEq

/-- `SessionState`, with the phase of the task. -/
structure SessionState where
  remoteNodeId : Option NodeId
  keepalive : KeepaliveState
  phase : Phase

/-- `SessionState::new`. -/
def SessionState.new : SessionState :=
  { remoteNodeId := none, keepalive := { outstanding := ∅ }, phase := .greeting }

/-- What a session is started with: of its configuration whether node IDs are
verified, the node ID of the peer's certificate, and the readers of what it
receives. -/
structure SessionEnv where
  crates : Crates
  fromReader : Bytes → Option CborValue
  topologyUpdateFromSlice : Bytes → Option TopologyUpdate
  topologyRequestFromSlice : Bytes → Option TopologyRequest
  verifyNodeId : Bool
  tlsNodeId : Option NodeId

namespace SessionEnv

/-- The check of a HELLO fails. -/
def refuses (env : SessionEnv) (frame : Frame) : Bool :=
  env.verifyNodeId && env.tlsNodeId.any fun tlsId => tlsId != frame.fast.srcNode

/-- The node ID a HELLO that passes stands for. -/
def verifiedNodeId (env : SessionEnv) (frame : Frame) : NodeId :=
  env.tlsNodeId.getD frame.fast.srcNode

end SessionEnv

/-- What happens at an `await` of a session. `written` says whether the write the
session then makes succeeds. -/
inductive SessionStep where
  /-- The loop is reached, or not: a certificate that is required but cannot be
  read, and a HELLO that cannot be sent, end the session. -/
  | start (started : Bool)
  | pingTick (now : Nat) (corrId : UInt64) (written : Bool)
  | received (now : Nat) (frame : Frame) (written : Bool)
  /-- `recv_any_frame` fails: an I/O error, the end of the stream, or bytes that
  are no frame. -/
  | readError
  | outbound (message : OutboundMessage) (written : Bool)
  | idleTimeout
  /-- The next step outside the `select!`. -/
  | proceed
  /-- The task is aborted. -/
  | abort

/-- What a step leaves: the session, the registry, and the event it emits. -/
structure Outcome where
  session : SessionState
  registry : Registry
  event : Option SessionEvent

namespace SessionState

/-- The step is over and the loop goes on. -/
def stays (s : SessionState) (r : Registry) : Outcome := ⟨s, r, none⟩

/-- The `break`s of the loop. -/
def leaves (s : SessionState) (r : Registry) : Outcome := ⟨{ s with phase := .leaving }, r, none⟩

/-- The function or the task ends here, without the cleanup. -/
def ends (s : SessionState) (r : Registry) : Outcome := ⟨{ s with phase := .ended }, r, none⟩

@[simp] theorem stays_event (s : SessionState) (r : Registry) : (s.stays r).event = none := rfl
@[simp] theorem leaves_event (s : SessionState) (r : Registry) : (s.leaves r).event = none := rfl
@[simp] theorem ends_event (s : SessionState) (r : Registry) : (s.ends r).event = none := rfl

/-- What the loop does with a frame. -/
def handleFrame (env : SessionEnv) (messageTx : Channel) (s : SessionState) (r : Registry)
    (now : Nat) (frame : Frame) (written : Bool) : Outcome :=
  match frame.fast.typ with
  | .hello =>
    if env.refuses frame then s.ends r
    else
      let verifiedNodeId := env.verifiedNodeId frame
      ⟨{ s with remoteNodeId := some verifiedNodeId, phase := .notifying verifiedNodeId },
        r.register verifiedNodeId messageTx, none⟩
  | .ping => if written then s.stays r else s.leaves r
  | .pong =>
    match s.keepalive.processPong frame.fast.corrId now with
    | some (rtt, keepalive) =>
      ⟨{ s with keepalive }, r, s.remoteNodeId.map fun remoteNodeId => .pong remoteNodeId rtt⟩
    | none => s.stays r
  | .data => ⟨s, r, some (.messageReceived (inboundOfFrame env.fromReader frame))⟩
  | .topologyUpdate =>
    ⟨s, r, (env.topologyUpdateFromSlice frame.payloadOrCipher).map .topologyUpdate⟩
  | .topologyRequest =>
    ⟨s, r, (env.topologyRequestFromSlice frame.payloadOrCipher).map .topologyRequest⟩
  | _ => s.stays r

/-- What the loop does with a message for the peer. -/
def handleOutbound (env : SessionEnv) (s : SessionState) (r : Registry) (message : OutboundMessage)
    (written : Bool) : Outcome :=
  if message.isTerminationMessage then s.leaves r
  else
    match buildDataFrame env.crates message with
    | .ok _ => if written then s.stays r else s.leaves r
    | .error _ => s.stays r

/-- One step of a session. What cannot happen in a phase changes nothing. -/
def step (env : SessionEnv) (messageTx : Channel) (s : SessionState) (r : Registry)
    (a : SessionStep) : Outcome :=
  match s.phase, a with
  | .greeting, .start started =>
    if started then ⟨{ s with phase := .looping }, r, none⟩ else s.ends r
  | .looping, .pingTick now corrId written =>
    if written then ⟨{ s with keepalive := s.keepalive.recordPing corrId now }, r, none⟩
    else s.leaves r
  | .looping, .received now frame written => s.handleFrame env messageTx r now frame written
  | .looping, .readError => s.leaves r
  | .looping, .outbound message written => s.handleOutbound env r message written
  | .looping, .idleTimeout => s.leaves r
  | .notifying verifiedNodeId, .proceed =>
    ⟨{ s with phase := .looping }, r, some (.connected verifiedNodeId)⟩
  | .leaving, .proceed =>
    ⟨{ s with phase := .unregistered },
      match s.remoteNodeId with
      | some nodeId => r.unregister nodeId
      | none => r, none⟩
  | .unregistered, .proceed =>
    ⟨{ s with phase := .ended }, r, some (.disconnected s.remoteNodeId)⟩
  | .ended, .abort => s.stays r
  | _, .abort => s.ends r
  | _, _ => s.stays r

end SessionState

/-! ## What a step can do -/

/-- The events that say that a session begins or ends. -/
def SessionEvent.isLifecycle : SessionEvent → Bool
  | .connected _ => true
  | .disconnected _ => true
  | _ => false

/-- In the loop, the step ends it. -/
def SessionStep.breaks (env : SessionEnv) : SessionStep → Bool
  | .pingTick _ _ written => !written
  | .received _ frame written => frame.fast.typ == .ping && !written
  | .readError => true
  | .outbound message written =>
    message.isTerminationMessage || (!written && (buildDataFrame env.crates message).isOk)
  | .idleTimeout => true
  | _ => false

/-- The message `DropSession` sends ends the loop of the session that gets it. -/
theorem breaks_createTerminationMessage (env : SessionEnv) (localNodeId targetNodeId : NodeId)
    (written : Bool) :
    SessionStep.breaks env
      (.outbound (.createTerminationMessage localNodeId targetNodeId) written) = true := by
  have hterm : (OutboundMessage.createTerminationMessage localNodeId
      targetNodeId).isTerminationMessage = true := by
    unfold OutboundMessage.createTerminationMessage OutboundMessage.isTerminationMessage
    dsimp only
    rw [AList.lookup_insert, beq_self_eq_true, beq_self_eq_true, Bool.and_self]
  unfold SessionStep.breaks
  dsimp only
  rw [hterm, Bool.true_or]

/-- The effects of a step on a session's place in the mesh. -/
inductive Effect (env : SessionEnv) (messageTx : Channel) (s : SessionState) (r : Registry) :
    SessionStep → Outcome → Prop
  /-- At most a message or a round-trip time is reported. -/
  | stay {a : SessionStep} {o : Outcome} (hremote : o.session.remoteNodeId = s.remoteNodeId)
      (hphase : o.session.phase = s.phase) (hregistry : o.registry = r)
      (hevent : ∀ e ∈ o.event, e.isLifecycle = false) : Effect env messageTx s r a o
  | start (hphase : s.phase = .greeting) :
      Effect env messageTx s r (.start true) ⟨{ s with phase := .looping }, r, none⟩
  | startFails (hphase : s.phase = .greeting) : Effect env messageTx s r (.start false) (s.ends r)
  | refuse {now : Nat} {frame : Frame} {written : Bool} (hphase : s.phase = .looping)
      (hhello : frame.fast.typ = .hello) (hrefuses : env.refuses frame = true) :
      Effect env messageTx s r (.received now frame written) (s.ends r)
  | register {now : Nat} {frame : Frame} {written : Bool} (hphase : s.phase = .looping)
      (hhello : frame.fast.typ = .hello) (hrefuses : env.refuses frame = false) :
      Effect env messageTx s r (.received now frame written)
        ⟨{ s with remoteNodeId := some (env.verifiedNodeId frame)
                  phase := .notifying (env.verifiedNodeId frame) },
          r.register (env.verifiedNodeId frame) messageTx, none⟩
  | connect {nodeId : NodeId} (hphase : s.phase = .notifying nodeId) :
      Effect env messageTx s r .proceed
        ⟨{ s with phase := .looping }, r, some (.connected nodeId)⟩
  | leave {a : SessionStep} (hphase : s.phase = .looping) (hbreaks : a.breaks env = true) :
      Effect env messageTx s r a (s.leaves r)
  | unregister {nodeId : NodeId} (hphase : s.phase = .leaving)
      (hremote : s.remoteNodeId = some nodeId) :
      Effect env messageTx s r .proceed
        ⟨{ s with phase := .unregistered }, r.unregister nodeId, none⟩
  | pass (hphase : s.phase = .leaving) (hremote : s.remoteNodeId = none) :
      Effect env messageTx s r .proceed ⟨{ s with phase := .unregistered }, r, none⟩
  | disconnect (hphase : s.phase = .unregistered) :
      Effect env messageTx s r .proceed
        ⟨{ s with phase := .ended }, r, some (.disconnected s.remoteNodeId)⟩
  | abort (hphase : s.phase ≠ .ended) : Effect env messageTx s r .abort (s.ends r)

namespace Effect

variable {env : SessionEnv} {messageTx : Channel} {s : SessionState} {r : Registry}

/-- Nothing happens. -/
theorem idle {a : SessionStep} : Effect env messageTx s r a (s.stays r) :=
  .stay rfl rfl rfl fun _ he => absurd he (by simp)

theorem handleFrame {now : Nat} {frame : Frame} {written : Bool} (hphase : s.phase = .looping) :
    Effect env messageTx s r (.received now frame written)
      (s.handleFrame env messageTx r now frame written) := by
  unfold SessionState.handleFrame
  split
  next hhello =>
    cases hrefuses : env.refuses frame with
    | true => exact .refuse hphase hhello hrefuses
    | false => exact .register hphase hhello hrefuses
  next hping =>
    cases written with
    | true => exact .idle
    | false => exact .leave hphase (by simp [SessionStep.breaks, hping])
  next =>
    split
    next rtt keepalive _ =>
      refine .stay rfl rfl rfl ?_
      intro e he
      obtain ⟨remoteNodeId, _, rfl⟩ := Option.map_eq_some_iff.mp he
      rfl
    next => exact .idle
  next =>
    refine .stay rfl rfl rfl ?_
    intro e he
    rw [← Option.some.inj he]
    rfl
  next =>
    refine .stay rfl rfl rfl ?_
    intro e he
    obtain ⟨update, _, rfl⟩ := Option.map_eq_some_iff.mp he
    rfl
  next =>
    refine .stay rfl rfl rfl ?_
    intro e he
    obtain ⟨request, _, rfl⟩ := Option.map_eq_some_iff.mp he
    rfl
  next => exact .idle

theorem handleOutbound {message : OutboundMessage} {written : Bool} (hphase : s.phase = .looping) :
    Effect env messageTx s r (.outbound message written)
      (s.handleOutbound env r message written) := by
  unfold SessionState.handleOutbound
  split
  next hterm => exact .leave hphase (by simp [SessionStep.breaks, hterm])
  next =>
    split
    next bytes hbuild =>
      cases written with
      | true => exact .idle
      | false =>
        exact .leave hphase (by simp [SessionStep.breaks, hbuild, Except.isOk, Except.toBool])
    next => exact .idle

end Effect

/-- **What a step of a session can do.** -/
theorem step_effect (env : SessionEnv) (messageTx : Channel) (s : SessionState) (r : Registry)
    (a : SessionStep) : Effect env messageTx s r a (s.step env messageTx r a) := by
  unfold SessionState.step
  split
  next started hphase =>
    cases started with
    | true => exact .start hphase
    | false => exact .startFails hphase
  next now corrId written hphase =>
    cases written with
    | true => exact .stay rfl rfl rfl fun _ he => absurd he (by simp)
    | false => exact .leave hphase rfl
  next hphase => exact .handleFrame hphase
  next hphase => exact .leave hphase rfl
  next hphase => exact .handleOutbound hphase
  next hphase => exact .leave hphase rfl
  next hphase => exact .connect hphase
  next hphase =>
    split
    next nodeId hremote => exact .unregister hphase hremote
    next hremote => exact .pass hphase hremote
  next hphase => exact .disconnect hphase
  next => exact .idle
  next hended => exact .abort hended
  next => exact .idle

theorem step_received {env : SessionEnv} {messageTx : Channel} {s : SessionState} {r : Registry}
    {now : Nat} {frame : Frame} {written : Bool} (hphase : s.phase = .looping) :
    s.step env messageTx r (.received now frame written)
      = s.handleFrame env messageTx r now frame written := by
  unfold SessionState.step
  rw [hphase]

/-- An abort ends the task wherever it stands. -/
theorem step_abort {env : SessionEnv} {messageTx : Channel} {s : SessionState} {r : Registry}
    (hphase : s.phase ≠ .ended) : s.step env messageTx r .abort = s.ends r := by
  unfold SessionState.step
  cases hcase : s.phase with
  | ended => exact absurd hcase hphase
  | _ => rfl

/-- An ended session does nothing more. -/
theorem step_ended {env : SessionEnv} {messageTx : Channel} {s : SessionState} {r : Registry}
    (hended : s.phase = .ended) (a : SessionStep) : s.step env messageTx r a = s.stays r := by
  unfold SessionState.step
  rw [hended]
  cases a <;> rfl

/-- The phase agrees with the remote node. -/
structure SessionState.Coherent (s : SessionState) : Prop where
  fresh : s.phase = .greeting → s.remoteNodeId = none
  notifies : ∀ nodeId, s.phase = .notifying nodeId → s.remoteNodeId = some nodeId

theorem SessionState.Coherent.new : SessionState.new.Coherent where
  fresh _ := rfl
  notifies _ h := absurd h (by simp [SessionState.new])

theorem SessionState.Coherent.effect {env : SessionEnv} {messageTx : Channel} {s : SessionState}
    {r : Registry} {a : SessionStep} {outcome : Outcome} (h : s.Coherent)
    (he : Effect env messageTx s r a outcome) : outcome.session.Coherent := by
  cases he with
  | stay hremote hphase _ _ =>
    refine ⟨?_, ?_⟩
    · intro hgreeting
      exact hremote.trans (h.fresh (hphase.symm.trans hgreeting))
    · intro nodeId hnotifying
      exact hremote.trans (h.notifies nodeId (hphase.symm.trans hnotifying))
  | register _ _ _ =>
    refine ⟨fun hgreeting => absurd hgreeting (by simp), ?_⟩
    intro nodeId hnotifying
    rw [Phase.notifying.inj hnotifying]
  | _ =>
    -- the phase reached is another one
    exact ⟨fun hgreeting => Phase.noConfusion hgreeting,
      fun _ hnotifying => Phase.noConfusion hnotifying⟩

/-! ## A run of one session -/

/-- A session, the registry it shares with the others, and the events it has
emitted. -/
structure Observed where
  session : SessionState
  registry : Registry
  events : List SessionEvent

/-- A session that starts. -/
def Observed.new (registry : Registry) : Observed := ⟨.new, registry, []⟩

/-- A step of the session, or what another one does to the registry. Only the
session itself registers its channel. -/
inductive Move (messageTx : Channel) where
  | own (a : SessionStep)
  | registers (nodeId : NodeId) (other : { tx : Channel // tx ≠ messageTx })
  | unregisters (nodeId : NodeId)

/-- One move. -/
def Observed.move (env : SessionEnv) (messageTx : Channel) (o : Observed) :
    Move messageTx → Observed
  | .own a =>
    let outcome := o.session.step env messageTx o.registry a
    ⟨outcome.session, outcome.registry, o.events ++ outcome.event.toList⟩
  | .registers nodeId other => { o with registry := o.registry.register nodeId other }
  | .unregisters nodeId => { o with registry := o.registry.unregister nodeId }

/-- What the emitted events say of a session, in every run. -/
structure Ledger (o : Observed) : Prop where
  coherent : o.session.Coherent
  /-- A session that has left `notifying` has reported its node. -/
  reported : ∀ nodeId, o.session.remoteNodeId = some nodeId →
    o.session.phase = .looping ∨ o.session.phase = .leaving ∨ o.session.phase = .unregistered →
    .connected nodeId ∈ o.events
  silent : o.session.remoteNodeId = none → ∀ nodeId, .connected nodeId ∉ o.events
  undisconnected : o.session.phase ≠ .ended → ∀ nodeId, .disconnected nodeId ∉ o.events

theorem Ledger.new (registry : Registry) : Ledger (.new registry) where
  coherent := .new
  reported _ h := absurd h (by simp [Observed.new, SessionState.new])
  silent _ _ := List.not_mem_nil
  undisconnected _ _ := List.not_mem_nil

/-- A report changes nothing about who is connected. -/
theorem mem_append_report {events : List SessionEvent} {event : Option SessionEvent}
    (hevent : ∀ e ∈ event, e.isLifecycle = false) {e : SessionEvent} (he : e.isLifecycle = true) :
    e ∈ events ++ event.toList ↔ e ∈ events := by
  rw [List.mem_append, Option.mem_toList]
  refine or_iff_left ?_
  intro hmem
  rw [hevent e hmem] at he
  exact absurd he (by simp)

/-- The steps from phase to phase that emit nothing. -/
def Quiet (before after : Phase) : Prop :=
  after = .ended ∨ (before = .greeting ∧ after = .looping) ∨
    (before = .looping ∧ after = .leaving) ∨ (before = .leaving ∧ after = .unregistered)

theorem Ledger.quiet {o : Observed} (h : Ledger o) {outcome : Outcome}
    (hevent : outcome.event = none) (hcoherent : outcome.session.Coherent)
    (hremote : outcome.session.remoteNodeId = o.session.remoteNodeId)
    (hphase : Quiet o.session.phase outcome.session.phase) :
    Ledger ⟨outcome.session, outcome.registry, o.events ++ outcome.event.toList⟩ := by
  rw [hevent, Option.toList_none, List.append_nil]
  refine ⟨hcoherent, ?_, ?_, ?_⟩
  · intro nodeId hnode hin
    dsimp only at hnode hin ⊢
    rw [hremote] at hnode
    rcases hphase with hended | ⟨hgreeting, _⟩ | ⟨hlooping, _⟩ | ⟨hleaving, _⟩
    · simp [hended] at hin
    · simp [h.coherent.fresh hgreeting] at hnode
    · exact h.reported nodeId hnode (.inl hlooping)
    · exact h.reported nodeId hnode (.inr (.inl hleaving))
  · intro hnone
    exact h.silent (hremote.symm.trans hnone)
  · intro hended
    apply h.undisconnected
    rcases hphase with hafter | ⟨hbefore, _⟩ | ⟨hbefore, _⟩ | ⟨hbefore, _⟩
    · exact absurd hafter hended
    · simp [hbefore]
    · simp [hbefore]
    · simp [hbefore]

theorem Ledger.effect {env : SessionEnv} {messageTx : Channel} {o : Observed} {a : SessionStep}
    {outcome : Outcome} (h : Ledger o) (he : Effect env messageTx o.session o.registry a outcome) :
    Ledger ⟨outcome.session, outcome.registry, o.events ++ outcome.event.toList⟩ := by
  have hcoherent := h.coherent.effect he
  cases he with
  | stay hremote hphase hregistry hevent =>
    refine ⟨hcoherent, ?_, ?_, ?_⟩
    · intro nodeId hnode hin
      rw [hremote] at hnode
      rw [hphase] at hin
      exact (mem_append_report hevent rfl).mpr (h.reported nodeId hnode hin)
    · intro hnone nodeId hmem
      rw [hremote] at hnone
      exact h.silent hnone nodeId ((mem_append_report hevent rfl).mp hmem)
    · intro hended nodeId hmem
      rw [hphase] at hended
      exact h.undisconnected hended nodeId ((mem_append_report hevent rfl).mp hmem)
  | start hphase => exact h.quiet rfl hcoherent rfl (.inr (.inl ⟨hphase, rfl⟩))
  | startFails _ => exact h.quiet rfl hcoherent rfl (.inl rfl)
  | refuse _ _ _ => exact h.quiet rfl hcoherent rfl (.inl rfl)
  | leave hphase _ => exact h.quiet rfl hcoherent rfl (.inr (.inr (.inl ⟨hphase, rfl⟩)))
  | unregister hphase _ => exact h.quiet rfl hcoherent rfl (.inr (.inr (.inr ⟨hphase, rfl⟩)))
  | pass hphase _ => exact h.quiet rfl hcoherent rfl (.inr (.inr (.inr ⟨hphase, rfl⟩)))
  | abort _ => exact h.quiet rfl hcoherent rfl (.inl rfl)
  | register hphase _ _ =>
    refine ⟨hcoherent, ?_, ?_, ?_⟩
    · intro nodeId _ hin
      simp at hin
    · intro hnone
      simp at hnone
    · intro _
      rw [Option.toList_none, List.append_nil]
      exact h.undisconnected (by simp [hphase])
  | @connect nodeId hphase =>
    have hremote := h.coherent.notifies nodeId hphase
    refine ⟨hcoherent, ?_, ?_, ?_⟩
    · intro nodeId' hnode _
      rw [← Option.some.inj (hremote.symm.trans hnode)]
      exact List.mem_append_right _ (List.mem_singleton_self _)
    · intro hnone
      exact absurd (hremote.symm.trans hnone) (by simp)
    · intro _ nodeId' hmem
      rcases List.mem_append.mp hmem with hmem | hmem
      · exact h.undisconnected (by simp [hphase]) nodeId' hmem
      · simp at hmem
  | disconnect hphase =>
    refine ⟨hcoherent, ?_, ?_, ?_⟩
    · intro _ _ hin
      simp at hin
    · intro hnone nodeId hmem
      rcases List.mem_append.mp hmem with hmem | hmem
      · exact h.silent hnone nodeId hmem
      · simp at hmem
    · intro hended
      exact absurd rfl hended

theorem Ledger.move {env : SessionEnv} {messageTx : Channel} {o : Observed} (h : Ledger o)
    (m : Move messageTx) : Ledger (o.move env messageTx m) := by
  cases m with
  | own a => exact h.effect (step_effect env messageTx o.session o.registry a)
  | registers nodeId other =>
    exact ⟨h.coherent, h.reported, h.silent, h.undisconnected⟩
  | unregisters nodeId =>
    exact ⟨h.coherent, h.reported, h.silent, h.undisconnected⟩

/-- **The ledger holds in every state of a session's run.** -/
theorem Ledger.run (env : SessionEnv) (messageTx : Channel) (registry : Registry)
    (moves : List (Move messageTx)) :
    Ledger (moves.foldl (Observed.move env messageTx) (.new registry)) :=
  List.foldlRecOn moves _ (Ledger.new registry) fun _ h m _ => h.move m

/-! ## Sessions for examples -/

/-- A session that verifies node IDs, and cannot read topology. -/
def exampleEnv (tlsNodeId : Option NodeId) : SessionEnv :=
  { crates := Crates.standard, fromReader := fun _ => some (.map [])
    topologyUpdateFromSlice := fun _ => none, topologyRequestFromSlice := fun _ => none
    verifyNodeId := true, tlsNodeId }

/-- The arrival of a node's HELLO. -/
def hello (nodeId : NodeId) : SessionStep :=
  .received 0 (Frame.new (FastHeader.new .hello nodeId 0 0) [] []) true

end MeshCore.Session
