import MeshCore.Session.Lifecycle
import MeshCore.Lib.Runs

/-!
# Whether a session cleans up after itself

A session that has ended must not be found in the global registry, and for every
`Connected` event it emitted there must be a `Disconnected` event for the same
node. The cleanup after the loop does this for the one node ID the session has
then. It misses three ways a session can go: a further HELLO that fails the check
ends the function before the cleanup, an abort ends the task before it, and a
further HELLO with another node ID replaces the one that would be cleaned up.

`session_cleans_up_iff`: whatever the other sessions do to the registry, a
session that goes none of these ways is clean when it has ended; and if the
others leave its entries alone, a session that goes one of them is not.
-/

namespace MeshCore.Session

open MeshCore.Lib MeshCore.Wire
open MeshCore.Topology (NodeId)

/-- Nothing is left of the session. -/
structure Clean (messageTx : Channel) (o : Observed) : Prop where
  unregistered : ∀ nodeId, o.registry.lookup nodeId ≠ some messageTx
  disconnected : ∀ nodeId, .connected nodeId ∈ o.events → .disconnected (some nodeId) ∈ o.events

/-- Once its remote node is set, every further HELLO passes and names the same
node, and the task is not aborted. -/
def Orderly (env : SessionEnv) (s : SessionState) : SessionStep → Prop
  | .received _ frame _ => s.phase = .looping → frame.fast.typ = .hello →
      ∀ nodeId, s.remoteNodeId = some nodeId →
        env.refuses frame = false ∧ env.verifiedNodeId frame = nodeId
  | .abort => s.phase ≠ .ended → s.remoteNodeId = none
  | _ => True

/-! ## Orderly sessions -/

/-- What an orderly session has in the registry and among its events. -/
structure Tidy (messageTx : Channel) (o : Observed) : Prop where
  owns : ∀ nodeId, o.registry.lookup nodeId = some messageTx →
    o.session.remoteNodeId = some nodeId ∧
      o.session.phase ≠ .unregistered ∧ o.session.phase ≠ .ended
  reports : ∀ nodeId, .connected nodeId ∈ o.events →
    o.session.remoteNodeId = some nodeId ∧
      (o.session.phase = .ended → .disconnected (some nodeId) ∈ o.events)

/-- A session without a remote node has left nothing anywhere. -/
theorem Tidy.of_none {messageTx : Channel} {o : Observed} (h : Tidy messageTx o)
    (hnone : o.session.remoteNodeId = none) :
    (∀ nodeId, o.registry.lookup nodeId ≠ some messageTx) ∧
      ∀ nodeId, .connected nodeId ∉ o.events := by
  refine ⟨?_, ?_⟩
  · intro nodeId hlookup
    exact absurd (hnone.symm.trans (h.owns nodeId hlookup).1) (by simp)
  · intro nodeId hmem
    exact absurd (hnone.symm.trans (h.reports nodeId hmem).1) (by simp)

/-- So it may end at any time. -/
theorem Tidy.ends {messageTx : Channel} {o : Observed} (h : Tidy messageTx o)
    (hnone : o.session.remoteNodeId = none) :
    Tidy messageTx ⟨(o.session.ends o.registry).session, (o.session.ends o.registry).registry,
      o.events ++ (o.session.ends o.registry).event.toList⟩ := by
  obtain ⟨hunregistered, hsilent⟩ := h.of_none hnone
  rw [SessionState.ends_event, Option.toList_none, List.append_nil]
  exact ⟨fun nodeId hlookup => absurd hlookup (hunregistered nodeId),
    fun nodeId hmem => absurd hmem (hsilent nodeId)⟩

/-- It may move on, neither unregistered nor ended, as the remote node it is. -/
theorem Tidy.moves {messageTx : Channel} {o : Observed} (h : Tidy messageTx o)
    {session : SessionState} (hremote : session.remoteNodeId = o.session.remoteNodeId)
    (hregistered : session.phase ≠ .unregistered) (hopen : session.phase ≠ .ended) :
    Tidy messageTx ⟨session, o.registry, o.events⟩ := by
  refine ⟨fun nodeId hlookup => ⟨?_, hregistered, hopen⟩,
    fun nodeId hmem => ⟨?_, fun hended => absurd hended hopen⟩⟩
  · exact hremote.trans (h.owns nodeId hlookup).1
  · exact hremote.trans (h.reports nodeId hmem).1

/-- It may register the remote node, if that is the one it knows. -/
theorem Tidy.registers {messageTx : Channel} {o : Observed} (h : Tidy messageTx o)
    {session : SessionState} {nodeId : NodeId} (hremote : session.remoteNodeId = some nodeId)
    (hsame : ∀ known, o.session.remoteNodeId = some known → known = nodeId)
    (hregistered : session.phase ≠ .unregistered) (hopen : session.phase ≠ .ended) :
    Tidy messageTx ⟨session, o.registry.register nodeId messageTx, o.events⟩ := by
  refine ⟨fun known hlookup => ⟨?_, hregistered, hopen⟩,
    fun known hmem => ⟨?_, fun hended => absurd hended hopen⟩⟩
  · dsimp only at hlookup
    rw [Registry.lookup_register] at hlookup
    split at hlookup
    next heq =>
      rw [heq]
      exact hremote
    next =>
      rw [hsame known (h.owns known hlookup).1]
      exact hremote
  · rw [hsame known (h.reports known hmem).1]
    exact hremote

/-- It may report the remote node. -/
theorem Tidy.connects {messageTx : Channel} {o : Observed} (h : Tidy messageTx o)
    {session : SessionState} {nodeId : NodeId}
    (hsame : session.remoteNodeId = o.session.remoteNodeId)
    (hremote : o.session.remoteNodeId = some nodeId) (hregistered : session.phase ≠ .unregistered)
    (hopen : session.phase ≠ .ended) :
    Tidy messageTx ⟨session, o.registry, o.events ++ [.connected nodeId]⟩ := by
  refine ⟨fun known hlookup => ⟨?_, hregistered, hopen⟩,
    fun known hmem => ⟨?_, fun hended => absurd hended hopen⟩⟩
  · exact hsame.trans (h.owns known hlookup).1
  · rcases List.mem_append.mp hmem with hmem | hmem
    · exact hsame.trans (h.reports known hmem).1
    · rw [List.mem_singleton, SessionEvent.connected.injEq] at hmem
      rw [hmem]
      exact hsame.trans hremote

/-- It may take out the entry of the remote node, which is the only one it has. -/
theorem Tidy.unregisters {messageTx : Channel} {o : Observed} (h : Tidy messageTx o)
    {session : SessionState} {nodeId : NodeId}
    (hsame : session.remoteNodeId = o.session.remoteNodeId)
    (hremote : o.session.remoteNodeId = some nodeId) (hopen : session.phase ≠ .ended) :
    Tidy messageTx ⟨session, o.registry.unregister nodeId, o.events⟩ := by
  refine ⟨fun known hlookup => ?_, fun known hmem => ⟨?_, fun hended => absurd hended hopen⟩⟩
  · dsimp only at hlookup
    rw [Registry.lookup_unregister] at hlookup
    split at hlookup
    next => exact absurd hlookup (by simp)
    next hne =>
      have hknown := (h.owns known hlookup).1
      exact absurd (Option.some.inj (hknown.symm.trans hremote)) hne
  · exact hsame.trans (h.reports known hmem).1

/-- And it may end with the report of it, once it has no entry. -/
theorem Tidy.disconnects {messageTx : Channel} {o : Observed} (h : Tidy messageTx o)
    {session : SessionState} (hsame : session.remoteNodeId = o.session.remoteNodeId)
    (hphase : o.session.phase = .unregistered) :
    Tidy messageTx
      ⟨session, o.registry, o.events ++ [.disconnected o.session.remoteNodeId]⟩ := by
  refine ⟨fun known hlookup => absurd hphase (h.owns known hlookup).2.1, fun known hmem => ?_⟩
  rcases List.mem_append.mp hmem with hmem | hmem
  · have hremote := (h.reports known hmem).1
    refine ⟨hsame.trans hremote, fun _ => List.mem_append_right _ ?_⟩
    rw [hremote]
    exact List.mem_singleton_self _
  · simp at hmem

theorem Tidy.effect {env : SessionEnv} {messageTx : Channel} {o : Observed} {a : SessionStep}
    {outcome : Outcome} (h : Tidy messageTx o) (hledger : Ledger o)
    (horderly : Orderly env o.session a)
    (he : Effect env messageTx o.session o.registry a outcome) :
    Tidy messageTx ⟨outcome.session, outcome.registry, o.events ++ outcome.event.toList⟩ := by
  cases he with
  | stay hremote hphase hregistry hevent =>
    refine ⟨?_, ?_⟩
    · intro nodeId hlookup
      dsimp only at hlookup ⊢
      rw [hregistry] at hlookup
      rw [hremote, hphase]
      exact h.owns nodeId hlookup
    · intro nodeId hmem
      dsimp only at hmem ⊢
      rw [mem_append_report hevent rfl] at hmem ⊢
      rw [hremote, hphase]
      exact h.reports nodeId hmem
  | start hphase =>
    rw [Option.toList_none, List.append_nil]
    exact h.moves rfl (by simp) (by simp)
  | startFails hphase => exact h.ends (hledger.coherent.fresh hphase)
  | @refuse _ frame _ hphase hhello hrefuses =>
    refine h.ends (Option.eq_none_iff_forall_ne_some.mpr ?_)
    intro nodeId hnode
    have hpasses := (horderly hphase hhello nodeId hnode).1
    exact absurd (hrefuses.symm.trans hpasses) (by simp)
  | @register _ frame _ hphase hhello hrefuses =>
    -- what was registered or reported before has the same node ID
    rw [Option.toList_none, List.append_nil]
    exact h.registers rfl (fun known hknown => (horderly hphase hhello known hknown).2.symm)
      (by simp) (by simp)
  | @connect nodeId hphase =>
    exact h.connects rfl (hledger.coherent.notifies nodeId hphase) (by simp) (by simp)
  | leave hphase _ =>
    rw [SessionState.leaves_event, Option.toList_none, List.append_nil]
    exact h.moves rfl (by simp [SessionState.leaves]) (by simp [SessionState.leaves])
  | @unregister nodeId hphase hremote =>
    rw [Option.toList_none, List.append_nil]
    exact h.unregisters rfl hremote (by simp)
  | pass hphase hremote =>
    obtain ⟨hunregistered, hsilent⟩ := h.of_none hremote
    rw [Option.toList_none, List.append_nil]
    exact ⟨fun nodeId hlookup => absurd hlookup (hunregistered nodeId),
      fun nodeId hmem => absurd hmem (hsilent nodeId)⟩
  | disconnect hphase => exact h.disconnects rfl hphase
  | abort hphase => exact h.ends (horderly hphase)

/-- The condition on a move: the others are free. -/
def OrderlyMove (env : SessionEnv) {messageTx : Channel} (o : Observed) : Move messageTx → Prop
  | .own a => Orderly env o.session a
  | _ => True

theorem Tidy.move {env : SessionEnv} {messageTx : Channel} {o : Observed} (h : Tidy messageTx o)
    (hledger : Ledger o) {m : Move messageTx} (horderly : OrderlyMove env o m) :
    Tidy messageTx (o.move env messageTx m) := by
  cases m with
  | own a => exact h.effect hledger horderly (step_effect env messageTx o.session o.registry a)
  | registers nodeId other =>
    refine ⟨?_, h.reports⟩
    intro nodeId' hlookup
    dsimp only [Observed.move] at hlookup
    rw [Registry.lookup_register] at hlookup
    split at hlookup
    next => exact absurd (Option.some.inj hlookup) other.2
    next => exact h.owns nodeId' hlookup
  | unregisters nodeId =>
    refine ⟨?_, h.reports⟩
    intro nodeId' hlookup
    dsimp only [Observed.move] at hlookup
    rw [Registry.lookup_unregister] at hlookup
    split at hlookup
    next => exact absurd hlookup (by simp)
    next => exact h.owns nodeId' hlookup

/-! ## Other sessions -/

/-- The session's entry is in the registry until it unregisters. -/
def Held (messageTx : Channel) (o : Observed) : Prop :=
  ∀ nodeId, o.session.remoteNodeId = some nodeId →
    o.session.phase ≠ .unregistered → o.session.phase ≠ .ended →
    o.registry.lookup nodeId = some messageTx

theorem Held.effect {env : SessionEnv} {messageTx : Channel} {o : Observed} {a : SessionStep}
    {outcome : Outcome} (h : Held messageTx o)
    (he : Effect env messageTx o.session o.registry a outcome) :
    Held messageTx ⟨outcome.session, outcome.registry, o.events ++ outcome.event.toList⟩ := by
  intro nodeId hnode hunregistered hended
  dsimp only at hnode hunregistered hended ⊢
  cases he with
  | stay hremote hphase hregistry hevent =>
    rw [hremote] at hnode
    rw [hphase] at hunregistered hended
    rw [hregistry]
    exact h nodeId hnode hunregistered hended
  | start hphase => exact h nodeId hnode (by simp [hphase]) (by simp [hphase])
  | connect hphase => exact h nodeId hnode (by simp [hphase]) (by simp [hphase])
  | leave hphase _ => exact h nodeId hnode (by simp [hphase]) (by simp [hphase])
  | register hphase _ _ =>
    rw [Registry.lookup_register, if_pos (Option.some.inj hnode).symm]
  | startFails _ => exact absurd rfl hended
  | refuse _ _ _ => exact absurd rfl hended
  | abort _ => exact absurd rfl hended
  | disconnect _ => exact absurd rfl hended
  | unregister _ _ => exact absurd rfl hunregistered
  | pass _ _ => exact absurd rfl hunregistered

/-- Something of the session is left that its cleanup will not reach. -/
inductive Leaked (messageTx : Channel) (o : Observed) : Prop
  /-- Two entries, of which the cleanup takes one. -/
  | twoEntries {nodeId nodeId' : NodeId} (hne : nodeId ≠ nodeId')
      (hentry : o.registry.lookup nodeId = some messageTx)
      (hentry' : o.registry.lookup nodeId' = some messageTx)
  | entry {nodeId : NodeId} (hphase : o.session.phase = .unregistered ∨ o.session.phase = .ended)
      (hentry : o.registry.lookup nodeId = some messageTx)
  | event {nodeId : NodeId} (hphase : o.session.phase = .ended)
      (hconnected : .connected nodeId ∈ o.events)
      (hdisconnected : .disconnected (some nodeId) ∉ o.events)

theorem Leaked.not_clean {messageTx : Channel} {o : Observed} (h : Leaked messageTx o) :
    ¬ Clean messageTx o := by
  intro hclean
  cases h with
  | twoEntries _ hentry _ => exact hclean.unregistered _ hentry
  | entry _ hentry => exact hclean.unregistered _ hentry
  | event _ hconnected hdisconnected => exact hdisconnected (hclean.disconnected _ hconnected)

/-- A step that is not orderly leaks. -/
theorem Leaked.of_not_orderly {env : SessionEnv} {messageTx : Channel} {o : Observed}
    {a : SessionStep} (hledger : Ledger o) (hheld : Held messageTx o)
    (horderly : ¬ Orderly env o.session a) :
    Leaked messageTx (o.move env messageTx (.own a)) := by
  cases a with
  | received now frame written =>
    simp only [Orderly, not_forall] at horderly
    obtain ⟨hphase, hhello, nodeId, hnode, hother⟩ := horderly
    have hentry := hheld nodeId hnode (by simp [hphase]) (by simp [hphase])
    dsimp only [Observed.move]
    rw [step_received hphase]
    unfold SessionState.handleFrame
    rw [hhello]
    dsimp only
    cases hrefuses : env.refuses frame with
    | true => exact .entry (.inr rfl) hentry
    | false =>
      have hne : nodeId ≠ env.verifiedNodeId frame := fun heq => hother ⟨hrefuses, heq.symm⟩
      refine .twoEntries hne ?_ ?_
      · exact (o.registry.lookup_register _ _ _).trans ((if_neg hne).trans hentry)
      · exact (o.registry.lookup_register _ _ _).trans (if_pos rfl)
  | abort =>
    simp only [Orderly, not_forall] at horderly
    obtain ⟨hphase, hnode⟩ := horderly
    obtain ⟨nodeId, hnode⟩ := Option.ne_none_iff_exists'.mp hnode
    dsimp only [Observed.move]
    rw [step_abort hphase]
    by_cases hunregistered : o.session.phase = .unregistered
    · -- only the event is missing
      refine .event rfl (List.mem_append_left _ (hledger.reported nodeId hnode ?_)) ?_
      · exact .inr (.inr hunregistered)
      · rw [SessionState.ends_event, Option.toList_none, List.append_nil]
        exact hledger.undisconnected hphase _
    · exact .entry (.inr rfl) (hheld nodeId hnode hunregistered hphase)
  | _ => exact absurd trivial horderly

/-- An entry of the session goes only when the session unregisters it. -/
theorem Effect.lookup_eq {env : SessionEnv} {messageTx : Channel} {s : SessionState} {r : Registry}
    {a : SessionStep} {outcome : Outcome} (he : Effect env messageTx s r a outcome)
    {nodeId : NodeId} (hentry : r.lookup nodeId = some messageTx) :
    outcome.registry.lookup nodeId = some messageTx ∨
      (s.phase = .leaving ∧ s.remoteNodeId = some nodeId ∧
        outcome.session.phase = .unregistered) := by
  cases he with
  | stay _ _ hregistry _ => exact Or.inl (hregistry ▸ hentry)
  | register _ _ _ =>
    refine Or.inl ((r.lookup_register _ _ _).trans ?_)
    split
    next => rfl
    next => exact hentry
  | @unregister nodeId' hphase hremote =>
    by_cases heq : nodeId = nodeId'
    · exact Or.inr ⟨hphase, heq ▸ hremote, rfl⟩
    · exact Or.inl ((r.lookup_unregister _ _).trans ((if_neg heq).trans hentry))
  | _ => exact Or.inl hentry

/-- The cleanup is not undone. -/
theorem Effect.phase_after {env : SessionEnv} {messageTx : Channel} {s : SessionState}
    {r : Registry} {a : SessionStep} {outcome : Outcome} (he : Effect env messageTx s r a outcome)
    (hphase : s.phase = .unregistered ∨ s.phase = .ended) :
    outcome.session.phase = .unregistered ∨ outcome.session.phase = .ended := by
  cases he with
  | stay _ hsame _ _ => exact hsame ▸ hphase
  | startFails _ => exact Or.inr rfl
  | refuse _ _ _ => exact Or.inr rfl
  | disconnect _ => exact Or.inr rfl
  | abort _ => exact Or.inr rfl
  | unregister _ _ => exact Or.inl rfl
  | pass _ _ => exact Or.inl rfl
  | start hbefore => simp [hbefore] at hphase
  | register hbefore _ _ => simp [hbefore] at hphase
  | connect hbefore => simp [hbefore] at hphase
  | leave hbefore _ => simp [hbefore] at hphase

/-- What has leaked stays. -/
theorem Leaked.own {env : SessionEnv} {messageTx : Channel} {o : Observed} (h : Leaked messageTx o)
    (a : SessionStep) : Leaked messageTx (o.move env messageTx (.own a)) := by
  have he := step_effect env messageTx o.session o.registry a
  cases h with
  | twoEntries hne hentry hentry' =>
    rcases he.lookup_eq hentry with hkept | ⟨_, hremote, hphase⟩
    · rcases he.lookup_eq hentry' with hkept' | ⟨_, _, hphase⟩
      · exact .twoEntries hne hkept hkept'
      · exact .entry (.inl hphase) hkept
    · -- the other entry is of another node
      rcases he.lookup_eq hentry' with hkept' | ⟨_, hremote', _⟩
      · exact .entry (.inl hphase) hkept'
      · exact absurd (Option.some.inj (hremote.symm.trans hremote')) hne
  | entry hphase hentry =>
    rcases he.lookup_eq hentry with hkept | ⟨hleaving, _, _⟩
    · exact .entry (he.phase_after hphase) hkept
    · simp [hleaving] at hphase
  | event hended hconnected hdisconnected =>
    dsimp only [Observed.move]
    rw [step_ended hended, SessionState.stays_event, Option.toList_none, List.append_nil]
    exact .event hended hconnected hdisconnected

/-! ## The result -/

/-- **When a session cleans up after itself.** Its channel is its own: nothing is
registered with it before it starts. With any moves of the other sessions in
between, an orderly session is clean when it has ended. Left alone, it is clean
then if and only if it was orderly. -/
theorem session_cleans_up_iff (env : SessionEnv) (messageTx : Channel) (registry : Registry)
    (hnew : ∀ nodeId, registry.lookup nodeId ≠ some messageTx) :
    (∀ moves : List (Move messageTx),
      Along (Observed.move env messageTx) (OrderlyMove env) (.new registry) moves →
      (moves.foldl (Observed.move env messageTx) (.new registry)).session.phase = .ended →
      Clean messageTx (moves.foldl (Observed.move env messageTx) (.new registry))) ∧
    ∀ steps : List SessionStep,
      ((steps.map Move.own).foldl (Observed.move env messageTx) (.new registry)).session.phase
        = .ended →
      (Clean messageTx ((steps.map Move.own).foldl (Observed.move env messageTx) (.new registry)) ↔
        Along (Observed.move env messageTx) (OrderlyMove env) (.new registry)
          (steps.map Move.own)) := by
  have hclean : ∀ moves : List (Move messageTx),
      Along (Observed.move env messageTx) (OrderlyMove env) (.new registry) moves →
      (moves.foldl (Observed.move env messageTx) (.new registry)).session.phase = .ended →
      Clean messageTx (moves.foldl (Observed.move env messageTx) (.new registry)) := by
    intro moves halong hended
    have htidy : Tidy messageTx (Observed.new registry) :=
      ⟨fun nodeId hlookup => absurd hlookup (hnew nodeId),
        fun nodeId hmem => absurd hmem List.not_mem_nil⟩
    obtain ⟨_, htidy⟩ := Along.inv (I := fun o => Ledger o ∧ Tidy messageTx o)
      (fun o m ⟨hledger, htidy⟩ horderly => ⟨hledger.move m, htidy.move hledger horderly⟩)
      ⟨.new registry, htidy⟩ halong
    exact ⟨fun nodeId hlookup => (htidy.owns nodeId hlookup).2.2 hended,
      fun nodeId hmem => (htidy.reports nodeId hmem).2 hended⟩
  refine ⟨hclean, ?_⟩
  intro steps hended
  refine ⟨?_, fun halong => hclean _ halong hended⟩
  intro hcleaned
  rw [List.foldl_map] at hcleaned
  rw [along_map]
  refine (along_or_damaged (D := Leaked messageTx) (I := fun o => Ledger o ∧ Held messageTx o)
    ?_ ?_ ?_ steps ⟨.new registry, ?_⟩).resolve_right fun hleaked => hleaked.not_clean hcleaned
  · rintro o a ⟨hledger, hheld⟩
    exact ⟨hledger.move (.own a), hheld.effect (step_effect env messageTx o.session o.registry a)⟩
  · rintro o a ⟨hledger, hheld⟩ horderly
    exact .of_not_orderly hledger hheld horderly
  · intro o a hleaked
    exact hleaked.own a
  · intro nodeId hnode
    simp [Observed.new, SessionState.new] at hnode

/-- A session that gets one HELLO and then loses its peer, while another session
takes the node's entry over. -/
theorem session_cleans_up_after_peer :
    Clean 0 ([Move.own (.start true), .own (hello 2), .own .proceed, .registers 2 ⟨1, by decide⟩,
        .own .readError, .own .proceed, .own .proceed].foldl
      (Observed.move (exampleEnv none) 0) (.new ∅)) := by
  refine (session_cleans_up_iff (exampleEnv none) 0 ∅ ?_).1 _ ?_ rfl
  · intro nodeId hlookup
    simp at hlookup
  · refine ⟨trivial, ?_, trivial, trivial, trivial, trivial, trivial, trivial⟩
    intro _ _ nodeId hnode
    exact absurd hnode (by simp [Observed.move, Observed.new, SessionState.new, SessionState.step])

/-- A second HELLO with another node ID, a second HELLO that the certificate
contradicts, and an abort each leave the entry of node 2 behind. -/
theorem session_leaks :
    (∃ o, o = [Move.own (.start true), .own (hello 2), .own .proceed, .own (hello 3), .own .proceed,
        .own .readError, .own .proceed, .own .proceed].foldl
        (Observed.move (exampleEnv none) 0) (.new ∅) ∧
      o.session.phase = .ended ∧ ¬ Clean 0 o) ∧
    (∃ o, o = [Move.own (.start true), .own (hello 2), .own .proceed, .own (hello 3)].foldl
        (Observed.move (exampleEnv (some 2)) 0) (.new ∅) ∧
      o.session.phase = .ended ∧ ¬ Clean 0 o) ∧
    ∃ o, o = [Move.own (.start true), .own (hello 2), .own .proceed, .own .abort].foldl
        (Observed.move (exampleEnv none) 0) (.new ∅) ∧
      o.session.phase = .ended ∧ ¬ Clean 0 o :=
  ⟨⟨_, rfl, rfl, fun hclean => hclean.unregistered 2 rfl⟩,
    ⟨_, rfl, rfl, fun hclean => hclean.unregistered 2 rfl⟩,
    ⟨_, rfl, rfl, fun hclean => hclean.unregistered 2 rfl⟩⟩

end MeshCore.Session
