import MeshCore.Session.Lifecycle
import MeshCore.Lib.Runs
import Mathlib.Logic.Function.Basic

/-!
# Whether a live session can be reached

The global registry and the manager's map both have one channel for each node.
When two sessions with one node overlap (both sides dial, or a reconnect comes
before the old session has noticed), the one that leaves takes the entries of
the other with it: it unregisters the node, and its `Disconnected` event removes
the node from the manager, whichever session they stand for.

The system is all sessions of a node, the registry, the queue of their events
and the manager, which handles the events in the order they were emitted. For one
remote node this is a `View`: the role of each session, what the registry and the
manager have for the node, and the queue. `RoleChange` lists what a step can do
to a role, and `Reachable` is the invariant of views. `live_session_reachable`:
where no session leaves its loop while another with the node is live, none
registers while another is about to unregister the node, and none emits
`Connected` while another is about to emit `Disconnected`, the manager has the
channel of a running session in every state without an unhandled event.

Mirroring notes: there is a session for every channel; those not begun are in
`greeting`. The manager's other work does not touch its map of sessions.
-/

namespace MeshCore.Session

open MeshCore.Lib MeshCore.Wire
open MeshCore.Topology (NodeId)
open MeshCore.Routing

/-! ## The system -/

/-- The sessions by their channels, and what they share. -/
structure World where
  sessions : Channel → SessionState
  registry : Registry
  /-- The events not handled yet, the oldest first. -/
  queue : List SessionEvent
  manager : SessionManager

/-- A step of one session, or the manager handles an event. -/
inductive WorldStep where
  | session (messageTx : Channel) (a : SessionStep)
  | manage

namespace World

/-- A node that starts. -/
def new (localNodeId : NodeId) (routingTable : RoutingTable) : World :=
  { sessions := fun _ => .new, registry := ∅, queue := []
    manager := { localNodeId, routingTable, sessions := ∅ } }

/-- One step. -/
def step (env : Channel → SessionEnv) (w : World) : WorldStep → World
  | .session messageTx a =>
    let outcome := (w.sessions messageTx).step (env messageTx) messageTx w.registry a
    { w with
      sessions := Function.update w.sessions messageTx outcome.session
      registry := outcome.registry
      queue := w.queue ++ outcome.event.toList }
  | .manage =>
    match w.queue with
    | [] => w
    | e :: queue => { w with queue, manager := (w.manager.handleSessionEvent w.registry e).1 }

end World

/-! ## Roles -/

/-- What a session is for one remote node. -/
inductive Role where
  | none
  /-- Registered, not reported. -/
  | notifying
  | running
  /-- Out of its loop, still registered. -/
  | leaving
  /-- Unregistered, its end not reported. -/
  | unregistered
  deriving DecidableEq

/-- In its loop, with the node. -/
def Role.Live (ρ : Role) : Prop := ρ = .notifying ∨ ρ = .running

/-- The role of a session for a node. -/
def SessionState.role (s : SessionState) (nodeId : NodeId) : Role :=
  match s.phase with
  | .notifying verifiedNodeId => if verifiedNodeId = nodeId then .notifying else .none
  | .looping => if s.remoteNodeId = some nodeId then .running else .none
  | .leaving => if s.remoteNodeId = some nodeId then .leaving else .none
  | .unregistered => if s.remoteNodeId = some nodeId then .unregistered else .none
  | _ => .none

/-- The role of the session with this channel. -/
def World.role (w : World) (nodeId : NodeId) (messageTx : Channel) : Role :=
  (w.sessions messageTx).role nodeId

/-! ## The runs -/

/-- A session that has its remote node follows its script: no second HELLO, and
no abort. -/
def SessionState.Scripted (s : SessionState) : SessionStep → Prop
  | .received _ frame _ => s.remoteNodeId.isSome = true → frame.fast.typ ≠ .hello
  | .abort => s.remoteNodeId = none
  | _ => True

/-- The step follows the session's script. -/
def World.Scripted (w : World) : WorldStep → Prop
  | .session messageTx a => (w.sessions messageTx).Scripted a
  | .manage => True

/-- The step takes the session out of its loop with the node. -/
def Leaves (env : SessionEnv) (nodeId : NodeId) (s : SessionState) (a : SessionStep) : Prop :=
  s.role nodeId = .running ∧ a.breaks env = true

/-- The step registers the session's channel under the node. -/
def Registers (env : SessionEnv) (nodeId : NodeId) (s : SessionState) (a : SessionStep) : Prop :=
  s.phase = .looping ∧ ∃ now frame written, a = .received now frame written ∧
    frame.fast.typ = .hello ∧ env.refuses frame = false ∧ env.verifiedNodeId frame = nodeId

/-- The step emits `Connected` for the node. -/
def Reports (nodeId : NodeId) (s : SessionState) (a : SessionStep) : Prop :=
  s.role nodeId = .notifying ∧ a = .proceed

/-- The step does not run into another session with the node. -/
def World.Undisturbed (env : Channel → SessionEnv) (nodeId : NodeId) (w : World) :
    WorldStep → Prop
  | .session messageTx a => ∀ other, other ≠ messageTx →
    (Leaves (env messageTx) nodeId (w.sessions messageTx) a → ¬ (w.role nodeId other).Live) ∧
    (Registers (env messageTx) nodeId (w.sessions messageTx) a →
      w.role nodeId other ≠ .leaving) ∧
    (Reports nodeId (w.sessions messageTx) a → w.role nodeId other ≠ .unregistered)
  | .manage => True

/-! ## What a step does to a role -/

/-- The event is not about the node's coming and going. -/
def SessionEvent.Elsewhere (nodeId : NodeId) (e : SessionEvent) : Prop :=
  e ≠ .connected nodeId ∧ e ≠ .disconnected (some nodeId)

/-- The effects of a step, as one remote node sees them. -/
inductive RoleChange (env : SessionEnv) (messageTx : Channel) (nodeId : NodeId) (s : SessionState)
    (r : Registry) (a : SessionStep) (o : Outcome) : Prop
  | same (hrole : o.session.role nodeId = s.role nodeId)
      (hregistry : o.registry.lookup nodeId = r.lookup nodeId)
      (hevent : ∀ e ∈ o.event, e.Elsewhere nodeId)
  | register (hstep : Registers env nodeId s a)
      (hafter : o.session.role nodeId = .notifying)
      (hregistry : o.registry.lookup nodeId = some messageTx) (hevent : o.event = none)
  | report (hstep : Reports nodeId s a) (hafter : o.session.role nodeId = .running)
      (hregistry : o.registry = r) (hevent : o.event = some (.connected nodeId))
  | leave (hstep : Leaves env nodeId s a) (hafter : o.session.role nodeId = .leaving)
  | unregister (hbefore : s.role nodeId = .leaving)
      (hafter : o.session.role nodeId = .unregistered)
  | disconnect (hbefore : s.role nodeId = .unregistered) (hafter : o.session.role nodeId = .none)
      (hregistry : o.registry = r)

/-- A session that has no remote node has no role. -/
theorem SessionState.Coherent.role_none {s : SessionState} (h : s.Coherent)
    (hnone : s.remoteNodeId = none) (nodeId : NodeId) : s.role nodeId = .none := by
  cases hphase : s.phase with
  | notifying verifiedNodeId =>
    exact absurd ((h.notifies verifiedNodeId hphase).symm.trans hnone) (by simp)
  | _ => simp [SessionState.role, hphase, hnone]

/-- A session that follows its script gets a HELLO only before it has a remote node. -/
theorem SessionState.Scripted.remoteNodeId_none {s : SessionState} {now : Nat} {frame : Frame}
    {written : Bool} (h : s.Scripted (.received now frame written))
    (hhello : frame.fast.typ = .hello) : s.remoteNodeId = none := by
  by_contra hsome
  exact h (Option.isSome_iff_ne_none.mpr hsome) hhello

theorem Effect.roleChange {env : SessionEnv} {messageTx : Channel} {s : SessionState}
    {r : Registry} {a : SessionStep} {o : Outcome} (he : Effect env messageTx s r a o)
    (hcoherent : s.Coherent) (hscripted : s.Scripted a) (nodeId : NodeId) :
    RoleChange env messageTx nodeId s r a o := by
  cases he with
  | stay hremote hphase hregistry hevent =>
    refine .same ?_ (by rw [hregistry]) ?_
    · unfold SessionState.role
      rw [hremote, hphase]
    · intro e hmem
      have hlifecycle := hevent e hmem
      exact ⟨fun h => by simp [h, SessionEvent.isLifecycle] at hlifecycle,
        fun h => by simp [h, SessionEvent.isLifecycle] at hlifecycle⟩
  | start hphase =>
    have hnone := hcoherent.fresh hphase
    exact .same (by simp [SessionState.role, hphase, hnone]) rfl (by simp)
  | startFails hphase =>
    exact .same (by simp [SessionState.role, hphase, SessionState.ends]) rfl (by simp)
  | refuse hphase hhello hrefuses =>
    have hnone := SessionState.Scripted.remoteNodeId_none hscripted hhello
    exact .same (by rw [hcoherent.role_none hnone]; rfl) rfl (by simp)
  | @register now frame written hphase hhello hrefuses =>
    have hnone := SessionState.Scripted.remoteNodeId_none hscripted hhello
    by_cases heq : env.verifiedNodeId frame = nodeId
    · refine .register ⟨hphase, now, frame, written, rfl, hhello, hrefuses, heq⟩ ?_ ?_ rfl
      · exact if_pos heq
      · exact (r.lookup_register _ _ _).trans (if_pos heq.symm)
    · refine .same ?_ ?_ (by simp)
      · exact (if_neg heq).trans (hcoherent.role_none hnone nodeId).symm
      · exact (r.lookup_register _ _ _).trans (if_neg (Ne.symm heq))
  | @connect verifiedNodeId hphase =>
    have hremote := hcoherent.notifies verifiedNodeId hphase
    by_cases heq : verifiedNodeId = nodeId
    · subst heq
      refine .report ⟨?_, rfl⟩ ?_ rfl rfl
      · simp [SessionState.role, hphase]
      · simp [SessionState.role, hremote]
    · refine .same ?_ rfl ?_
      · simp [SessionState.role, hphase, hremote, heq]
      · intro e he
        rw [← Option.some.inj he]
        exact ⟨by simp [heq], by simp⟩
  | leave hphase hbreaks =>
    by_cases hremote : s.remoteNodeId = some nodeId
    · refine .leave ⟨?_, hbreaks⟩ ?_
      · simp [SessionState.role, hphase, hremote]
      · simp [SessionState.role, SessionState.leaves, hremote]
    · refine .same ?_ rfl (by simp)
      simp [SessionState.role, SessionState.leaves, hphase, hremote]
  | @unregister verifiedNodeId hphase hremote =>
    by_cases heq : verifiedNodeId = nodeId
    · subst heq
      refine .unregister ?_ ?_
      · simp [SessionState.role, hphase, hremote]
      · simp [SessionState.role, hremote]
    · refine .same ?_ ?_ (by simp)
      · simp [SessionState.role, hphase, hremote, heq]
      · exact (r.lookup_unregister _ _).trans (if_neg (Ne.symm heq))
  | pass hphase hremote =>
    exact .same (by simp [SessionState.role, hphase, hremote]) rfl (by simp)
  | disconnect hphase =>
    by_cases hremote : s.remoteNodeId = some nodeId
    · refine .disconnect ?_ rfl rfl
      simp [SessionState.role, hphase, hremote]
    · refine .same ?_ rfl ?_
      · simp [SessionState.role, hphase, hremote]
      · intro e he
        rw [← Option.some.inj he]
        exact ⟨by simp, by simp [hremote]⟩
  | abort hphase =>
    exact .same (by rw [hcoherent.role_none hscripted]; rfl) rfl (by simp)

/-! ## What the queue will settle -/

/-- Whether the manager has a live channel of the node after it has handled the
event. -/
def settle (nodeId : NodeId) (settled : Prop) : SessionEvent → Prop
  | .connected nodeId' => nodeId' = nodeId ∨ settled
  | .disconnected (some nodeId') => nodeId' ≠ nodeId ∧ settled
  | _ => settled

/-- Whether it will have one after the whole queue, with the registry as it is. -/
def Settles (nodeId : NodeId) (queue : List SessionEvent) (now : Prop) : Prop :=
  queue.foldl (settle nodeId) now

theorem settle_mono {nodeId : NodeId} {p q : Prop} (hpq : p → q) (e : SessionEvent)
    (h : settle nodeId p e) : settle nodeId q e := by
  unfold settle at h ⊢
  split at h
  · exact h.imp_right hpq
  · exact h.imp_right hpq
  · exact hpq h

theorem Settles.mono {nodeId : NodeId} {queue : List SessionEvent} {p q : Prop} (hpq : p → q)
    (h : Settles nodeId queue p) : Settles nodeId queue q := by
  induction queue generalizing p q with
  | nil => exact hpq h
  | cons e queue ih => exact ih (settle_mono hpq e) h

theorem Settles.elsewhere {nodeId : NodeId} {queue : List SessionEvent} {p : Prop}
    (h : Settles nodeId queue p) {event : Option SessionEvent}
    (hevent : ∀ e ∈ event, e.Elsewhere nodeId) : Settles nodeId (queue ++ event.toList) p := by
  unfold Settles
  rw [List.foldl_append]
  cases event with
  | none => exact h
  | some e =>
    have hdisconnected := (hevent e rfl).2
    show settle nodeId (Settles nodeId queue p) e
    unfold settle
    split
    · exact Or.inr h
    · exact ⟨fun heq => hdisconnected (by rw [heq]), h⟩
    · exact h

theorem settles_connected (nodeId : NodeId) (queue : List SessionEvent) (p : Prop) :
    Settles nodeId (queue ++ [.connected nodeId]) p := by
  unfold Settles
  rw [List.foldl_append]
  exact Or.inl rfl

/-- The manager does what the queue promises. -/
theorem Settles.handle {nodeId : NodeId} {queue : List SessionEvent} {e : SessionEvent}
    {mgr : SessionManager} {registry : Registry} {L : Channel → Prop}
    (hregistered : ∃ messageTx, registry.lookup nodeId = some messageTx ∧ L messageTx)
    (h : Settles nodeId (e :: queue)
      (∃ messageTx, mgr.sessions.lookup nodeId = some messageTx ∧ L messageTx)) :
    Settles nodeId queue (∃ messageTx,
      (mgr.handleSessionEvent registry e).1.sessions.lookup nodeId = some messageTx ∧
        L messageTx) := by
  refine Settles.mono ?_ h
  cases e with
  | connected nodeId' =>
    unfold SessionManager.handleSessionEvent
    dsimp only
    by_cases heq : nodeId' = nodeId
    · -- the registry has a live channel
      obtain ⟨messageTx, hlookup, hlive⟩ := hregistered
      intro _
      rw [heq, hlookup]
      exact ⟨messageTx, AList.lookup_insert _, hlive⟩
    · intro hsettled
      obtain ⟨messageTx, hlookup, hlive⟩ := hsettled.resolve_left heq
      refine ⟨messageTx, ?_, hlive⟩
      split
      next => exact (AList.lookup_insert_ne (Ne.symm heq)).trans hlookup
      next => exact hlookup
  | disconnected remoteNodeId =>
    cases remoteNodeId with
    | none => exact id
    | some nodeId' =>
      rintro ⟨hne, messageTx, hlookup, hlive⟩
      exact ⟨messageTx, (AList.lookup_erase_ne (Ne.symm hne)).trans hlookup, hlive⟩
  | pong _ _ => exact id
  | messageReceived _ => exact id
  | topologyUpdate _ => exact id
  | topologyRequest _ => exact id

/-! ## The view of one node -/

/-- What the system is for one remote node. -/
structure View where
  role : Channel → Role
  registered : Option Channel
  managed : Option Channel
  queue : List SessionEvent

/-- The view of a node. -/
def World.view (w : World) (nodeId : NodeId) : View :=
  { role := w.role nodeId, registered := w.registry.lookup nodeId
    managed := w.manager.sessions.lookup nodeId, queue := w.queue }

/-- The session's channel is that of a session in its loop. -/
def View.IsLive (v : View) (channel : Option Channel) : Prop :=
  ∃ messageTx, channel = some messageTx ∧ (v.role messageTx).Live

theorem View.IsLive.mono {v v' : View} {channel : Option Channel} (h : v.IsLive channel)
    (hlive : ∀ messageTx, (v.role messageTx).Live → (v'.role messageTx).Live) :
    v'.IsLive channel := by
  obtain ⟨messageTx, hchannel, hlive'⟩ := h
  exact ⟨messageTx, hchannel, hlive messageTx hlive'⟩

/-- What holds of the sessions with a node while one of them is live. -/
structure Reachable (nodeId : NodeId) (v : View) : Prop where
  /-- None is about to unregister the node. -/
  leaving : ∀ messageTx, (v.role messageTx).Live → ∀ other, v.role other ≠ .leaving
  /-- None is about to emit `Disconnected`. -/
  unregistered : ∀ messageTx, v.role messageTx = .running → ∀ other, v.role other ≠ .unregistered
  registered : ∀ messageTx, (v.role messageTx).Live → v.IsLive v.registered
  settles : ∀ messageTx, v.role messageTx = .running →
    Settles nodeId v.queue (v.IsLive v.managed)

namespace Reachable

variable {nodeId : NodeId} {v : View} {messageTx : Channel}

/-- Where no session is live, nothing is asked. -/
theorem of_no_live (hlive : ∀ messageTx, ¬ (v.role messageTx).Live) : Reachable nodeId v :=
  ⟨fun messageTx h => absurd h (hlive messageTx),
    fun messageTx h => absurd (Or.inr h) (hlive messageTx),
    fun messageTx h => absurd h (hlive messageTx),
    fun messageTx h => absurd (Or.inr h) (hlive messageTx)⟩

theorem elsewhere (h : Reachable nodeId v) {event : Option SessionEvent}
    (hevent : ∀ e ∈ event, e.Elsewhere nodeId) :
    Reachable nodeId { v with queue := v.queue ++ event.toList } :=
  ⟨h.leaving, h.unregistered, h.registered,
    fun messageTx hrunning => (h.settles messageTx hrunning).elsewhere hevent⟩

theorem register (h : Reachable nodeId v)
    (hleaving : ∀ other, other ≠ messageTx → v.role other ≠ .leaving) :
    Reachable nodeId { v with
      role := Function.update v.role messageTx .notifying, registered := some messageTx } := by
  have hlive : ∀ other, (v.role other).Live →
      (Function.update v.role messageTx .notifying other).Live := by
    intro other hother
    rw [Function.update_apply]
    split
    · exact Or.inl rfl
    · exact hother
  have hrunning : ∀ other, Function.update v.role messageTx .notifying other = .running →
      v.role other = .running := by
    intro other hother
    rw [Function.update_apply] at hother
    split at hother
    · exact absurd hother (by simp)
    · exact hother
  refine ⟨?_, ?_, ?_, ?_⟩
  · intro _ _ other
    dsimp only
    rw [Function.update_apply]
    split
    next => simp
    next hne => exact hleaving other hne
  · intro other hother third
    dsimp only
    rw [Function.update_apply]
    split
    next => simp
    next => exact h.unregistered other (hrunning other hother) third
  · intro _ _
    exact ⟨messageTx, rfl, Or.inl (Function.update_self ..)⟩
  · intro other hother
    exact (h.settles other (hrunning other hother)).mono fun hmanaged => hmanaged.mono hlive

/-- A session takes another role, which is not `leaving`, and as many are live as before. -/
theorem leaving_update (h : Reachable nodeId v) {role : Role} (hrole : role ≠ .leaving)
    (hlive : ∀ other, (Function.update v.role messageTx role other).Live ↔ (v.role other).Live)
    (other : Channel) (hother : (Function.update v.role messageTx role other).Live)
    (third : Channel) : Function.update v.role messageTx role third ≠ .leaving := by
  rw [Function.update_apply]
  split
  next => exact hrole
  next => exact h.leaving other ((hlive other).mp hother) third

theorem report (h : Reachable nodeId v) (hbefore : v.role messageTx = .notifying)
    (hunregistered : ∀ other, other ≠ messageTx → v.role other ≠ .unregistered) :
    Reachable nodeId { v with
      role := Function.update v.role messageTx .running
      queue := v.queue ++ [.connected nodeId] } := by
  have hlive : ∀ other, (Function.update v.role messageTx .running other).Live ↔
      (v.role other).Live := by
    intro other
    rw [Function.update_apply]
    split
    next heq => exact iff_of_true (Or.inr rfl) (Or.inl (heq ▸ hbefore))
    next => exact Iff.rfl
  refine ⟨h.leaving_update (by simp) hlive, ?_, ?_, ?_⟩
  · intro _ _ third
    dsimp only
    rw [Function.update_apply]
    split
    next => simp
    next hne => exact hunregistered third hne
  · intro other hother
    exact (h.registered other ((hlive other).mp hother)).mono fun third => (hlive third).mpr
  · intro _ _
    exact settles_connected ..

/-- The last live session leaves. -/
theorem leave {v' : View} (hother : ∀ other, other ≠ messageTx → ¬ (v.role other).Live)
    (hafter : v'.role = Function.update v.role messageTx .leaving) : Reachable nodeId v' := by
  apply of_no_live
  intro other
  rw [hafter, Function.update_apply]
  split
  next => exact fun hlive => by simp [Role.Live] at hlive
  next hne => exact hother other hne

/-- A session that unregisters is the last one. -/
theorem unregister {v' : View} (h : Reachable nodeId v) (hbefore : v.role messageTx = .leaving)
    (hafter : v'.role = Function.update v.role messageTx .unregistered) : Reachable nodeId v' := by
  apply of_no_live
  intro other
  rw [hafter, Function.update_apply]
  split
  next => exact fun hlive => by simp [Role.Live] at hlive
  next => exact fun hlive => h.leaving other hlive messageTx hbefore

theorem disconnect (h : Reachable nodeId v) (hbefore : v.role messageTx = .unregistered)
    (queue : List SessionEvent) :
    Reachable nodeId { v with role := Function.update v.role messageTx .none, queue } := by
  have hlive : ∀ other, (Function.update v.role messageTx .none other).Live ↔
      (v.role other).Live := by
    intro other
    rw [Function.update_apply]
    split
    next heq => exact iff_of_false (by simp [Role.Live]) (by simp [Role.Live, heq, hbefore])
    next => exact Iff.rfl
  -- no session has been reported yet
  have hrunning : ∀ other, Function.update v.role messageTx .none other ≠ .running := by
    intro other hother
    rw [Function.update_apply] at hother
    split at hother
    next => exact absurd hother (by simp)
    next => exact h.unregistered other hother messageTx hbefore
  refine ⟨h.leaving_update (by simp) hlive, ?_, ?_, ?_⟩
  · intro other hother
    exact absurd hother (hrunning other)
  · intro other hother
    exact (h.registered other ((hlive other).mp hother)).mono fun third => (hlive third).mpr
  · intro other hother
    exact absurd hother (hrunning other)

end Reachable

/-! ## The runs keep the invariant -/

/-- The roles after a step of a session: only its own may change. -/
theorem World.role_session (env : Channel → SessionEnv) (w : World) (messageTx : Channel)
    (a : SessionStep) (nodeId : NodeId) :
    (w.step env (.session messageTx a)).role nodeId = Function.update (w.role nodeId) messageTx
      (((w.sessions messageTx).step (env messageTx) messageTx w.registry a).session.role
        nodeId) := by
  funext other
  unfold World.role World.step
  dsimp only
  by_cases heq : other = messageTx
  · rw [heq, Function.update_self, Function.update_self]
  · rw [Function.update_of_ne heq, Function.update_of_ne heq]

/-- What holds in every state of an undisturbed run. -/
structure World.Sound (nodeId : NodeId) (w : World) : Prop where
  coherent : ∀ messageTx, (w.sessions messageTx).Coherent
  reachable : Reachable nodeId (w.view nodeId)

theorem World.Sound.session {nodeId : NodeId} {env : Channel → SessionEnv} {w : World}
    {messageTx : Channel} {a : SessionStep} (h : w.Sound nodeId)
    (hscripted : w.Scripted (.session messageTx a))
    (hundisturbed : w.Undisturbed env nodeId (.session messageTx a)) :
    (w.step env (.session messageTx a)).Sound nodeId := by
  have heffect := step_effect (env messageTx) messageTx (w.sessions messageTx) w.registry a
  refine ⟨?_, ?_⟩
  · intro other
    unfold World.step
    dsimp only
    by_cases heq : other = messageTx
    · rw [heq, Function.update_self]
      exact (h.coherent messageTx).effect heffect
    · rw [Function.update_of_ne heq]
      exact h.coherent other
  have hview : (w.step env (.session messageTx a)).view nodeId =
      { role := Function.update (w.role nodeId) messageTx
          (((w.sessions messageTx).step (env messageTx) messageTx w.registry a).session.role nodeId)
        registered := ((w.sessions messageTx).step (env messageTx) messageTx w.registry
          a).registry.lookup nodeId
        managed := w.manager.sessions.lookup nodeId
        queue := w.queue ++ ((w.sessions messageTx).step (env messageTx) messageTx w.registry
          a).event.toList } := by
    unfold World.view
    rw [World.role_session]
    rfl
  rw [hview]
  cases heffect.roleChange (h.coherent messageTx) hscripted nodeId with
  | same hrole hregistry hevent =>
    have hsame : (w.sessions messageTx).role nodeId = w.role nodeId messageTx := rfl
    rw [hrole, hsame, Function.update_eq_self, hregistry]
    exact h.reachable.elsewhere hevent
  | register hstep hafter hregistry hevent =>
    rw [hafter, hregistry, hevent, Option.toList_none, List.append_nil]
    exact h.reachable.register fun other hne => (hundisturbed other hne).2.1 hstep
  | report hstep hafter hregistry hevent =>
    rw [hafter, hregistry, hevent]
    exact h.reachable.report hstep.1 fun other hne => (hundisturbed other hne).2.2 hstep
  | leave hstep hafter =>
    rw [hafter]
    exact .leave (v := w.view nodeId) (fun other hne => (hundisturbed other hne).1 hstep) rfl
  | unregister hbefore hafter =>
    rw [hafter]
    exact h.reachable.unregister hbefore rfl
  | disconnect hbefore hafter hregistry =>
    rw [hafter, hregistry]
    exact h.reachable.disconnect hbefore _

theorem World.Sound.manage {nodeId : NodeId} {env : Channel → SessionEnv} {w : World}
    (h : w.Sound nodeId) : (w.step env .manage).Sound nodeId := by
  unfold World.step
  dsimp only
  split
  next => exact h
  next e queue hqueue =>
    refine ⟨h.coherent, h.reachable.leaving, h.reachable.unregistered, h.reachable.registered, ?_⟩
    intro messageTx hrunning
    have hsettles := h.reachable.settles messageTx hrunning
    dsimp only [World.view] at hsettles
    rw [hqueue] at hsettles
    exact hsettles.handle (h.reachable.registered messageTx (Or.inr hrunning))

/-- The state after a run. -/
def World.run (env : Channel → SessionEnv) (localNodeId : NodeId) (routingTable : RoutingTable)
    (steps : List WorldStep) : World :=
  steps.foldl (World.step env) (.new localNodeId routingTable)

/-- **When a live session stays reachable.** The sessions each follow their
script, and none leaves, registers or reports while it would run into another
one with the node. Then, when no event is unhandled and a session with the node
is running, the manager has the channel of a session in its loop with the node. -/
theorem live_session_reachable {env : Channel → SessionEnv} {nodeId localNodeId : NodeId}
    {routingTable : RoutingTable} {steps : List WorldStep}
    (hscripted : Along (World.step env) World.Scripted (.new localNodeId routingTable) steps)
    (hundisturbed : Along (World.step env) (World.Undisturbed env nodeId)
      (.new localNodeId routingTable) steps)
    (hqueue : (World.run env localNodeId routingTable steps).queue = [])
    (hrunning : ∃ messageTx,
      (World.run env localNodeId routingTable steps).role nodeId messageTx = .running) :
    ∃ messageTx, (World.run env localNodeId routingTable steps).manager.sessions.lookup nodeId
        = some messageTx ∧
      ((World.run env localNodeId routingTable steps).role nodeId messageTx).Live := by
  have hnew : (World.new localNodeId routingTable).Sound nodeId := by
    refine ⟨fun _ => .new, .of_no_live ?_⟩
    intro messageTx hlive
    simp [Role.Live, World.view, World.role, World.new, SessionState.role,
      SessionState.new] at hlive
  have hsound : (World.run env localNodeId routingTable steps).Sound nodeId := by
    refine Along.inv (I := World.Sound nodeId) ?_ hnew (hscripted.and hundisturbed)
    rintro w a h ⟨hscripted, hundisturbed⟩
    cases a with
    | session messageTx a => exact h.session hscripted hundisturbed
    | manage => exact h.manage
  obtain ⟨messageTx, hrunning⟩ := hrunning
  have hsettles := hsound.reachable.settles messageTx hrunning
  dsimp only [World.view] at hsettles
  rw [hqueue] at hsettles
  exact hsettles

/-- A session that has the node for itself is not disturbed. -/
theorem undisturbed_of_none {env : Channel → SessionEnv} {nodeId : NodeId} {w : World}
    {messageTx : Channel} {a : SessionStep}
    (h : ∀ other, other ≠ messageTx → w.role nodeId other = .none) :
    w.Undisturbed env nodeId (.session messageTx a) := by
  intro other hne
  rw [h other hne]
  exact ⟨fun _ hlive => by simp [Role.Live] at hlive, fun _ => by simp, fun _ => by simp⟩

/-- The steps of a session with node 2 up to its `Connected` event. -/
def connects (messageTx : Channel) : List WorldStep :=
  [.session messageTx (.start true), .session messageTx (hello 2), .session messageTx .proceed]

/-- The steps of a session that loses its peer. -/
def disconnects (messageTx : Channel) : List WorldStep :=
  [.session messageTx .readError, .session messageTx .proceed, .session messageTx .proceed]

/-- A run of node 1. -/
def exampleRun (steps : List WorldStep) : World :=
  World.run (fun _ => exampleEnv none) 1 (RoutingTable.new 1 fun _ _ _ => 0) steps

/-- Node 2 connects, goes, and comes back. -/
theorem live_session_reachable_reconnect :
    ∃ messageTx,
      (exampleRun (connects 0 ++ disconnects 0 ++ connects 1 ++
        [.manage, .manage, .manage])).manager.sessions.lookup 2 = some messageTx ∧
      ((exampleRun (connects 0 ++ disconnects 0 ++ connects 1 ++
        [.manage, .manage, .manage])).role 2 messageTx).Live := by
  refine live_session_reachable ?_ ?_ rfl ⟨1, rfl⟩
  · exact ⟨trivial, fun hsome => Bool.noConfusion hsome, trivial, trivial, trivial, trivial,
      trivial, fun hsome => Bool.noConfusion hsome, trivial, trivial, trivial, trivial, trivial⟩
  · have hfirst : ∀ {w : World}, (∀ n, w.role 2 (n + 1) = .none) →
        ∀ other, other ≠ 0 → w.role 2 other = .none := by
      rintro w h (_ | n) hne
      · exact absurd rfl hne
      · exact h n
    have hsecond : ∀ {w : World}, w.role 2 0 = .none → (∀ n, w.role 2 (n + 2) = .none) →
        ∀ other, other ≠ 1 → w.role 2 other = .none := by
      rintro w hzero h (_ | _ | n) hne
      · exact hzero
      · exact absurd rfl hne
      · exact h n
    exact ⟨undisturbed_of_none (hfirst fun _ => rfl), undisturbed_of_none (hfirst fun _ => rfl),
      undisturbed_of_none (hfirst fun _ => rfl), undisturbed_of_none (hfirst fun _ => rfl),
      undisturbed_of_none (hfirst fun _ => rfl), undisturbed_of_none (hfirst fun _ => rfl),
      undisturbed_of_none (hsecond rfl fun _ => rfl),
      undisturbed_of_none (hsecond rfl fun _ => rfl),
      undisturbed_of_none (hsecond rfl fun _ => rfl), trivial, trivial, trivial, trivial⟩

/-- Two sessions with node 2 overlap, and the first one goes: the second is
running, and the manager does not know the node. -/
theorem live_session_lost :
    ∃ w steps, w = exampleRun steps ∧
      Along (World.step fun _ => exampleEnv none) World.Scripted
        (.new 1 (RoutingTable.new 1 fun _ _ _ => 0)) steps ∧
      w.queue = [] ∧ w.role 2 1 = .running ∧ w.manager.sessions.lookup 2 = none := by
  refine ⟨_, connects 0 ++ connects 1 ++ [.manage, .manage] ++ disconnects 0 ++ [.manage], rfl, ?_,
    rfl, rfl, rfl⟩
  exact ⟨trivial, fun hsome => Bool.noConfusion hsome, trivial, trivial,
    fun hsome => Bool.noConfusion hsome, trivial, trivial, trivial, trivial, trivial, trivial,
    trivial, trivial⟩

end MeshCore.Session
