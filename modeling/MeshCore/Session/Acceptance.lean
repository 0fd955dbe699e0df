import MeshCore.Session.Lifecycle
import MeshCore.Lib.Runs

/-!
# What a session accepts before its handshake

The loop of a session has one handler for each type of frame. The PONG handler
asks whether the remote node is known before it reports anything; the handlers
of DATA and of the topology frames do not, so a peer that never sent a HELLO, or
sends one after its data, is listened to.

`accepted_after_handshake_iff` is exact: in a run of a session nothing is
accepted before its first `Connected` event if and only if every DATA frame, and
every topology frame that can be read, is handled when a HELLO has passed.
-/

namespace MeshCore.Session

open MeshCore.Lib MeshCore.Wire

/-- The events that carry something the peer sent. -/
def SessionEvent.isAccepted : SessionEvent → Bool
  | .messageReceived _ => true
  | .topologyUpdate _ => true
  | .topologyRequest _ => true
  | _ => false

/-- Everything accepted was accepted after a `Connected` event. -/
def HandshakeFirst (events : List SessionEvent) : Prop :=
  ∀ before e after, events = before ++ e :: after → e.isAccepted = true →
    ∃ nodeId, .connected nodeId ∈ before

theorem handshakeFirst_append {events : List SessionEvent} (h : HandshakeFirst events)
    (event : Option SessionEvent) :
    HandshakeFirst (events ++ event.toList) ↔
      ∀ e ∈ event, e.isAccepted = true → ∃ nodeId, .connected nodeId ∈ events := by
  cases event with
  | none =>
    rw [Option.toList_none, List.append_nil]
    exact ⟨fun _ e he => absurd he (by simp), fun _ => h⟩
  | some e =>
    constructor
    · intro hfirst e' he' haccepted
      rw [Option.mem_some.mp he'] at hfirst
      exact hfirst events e' [] rfl haccepted
    · intro hlast before e' after hsplit haccepted
      -- the event is the last one, or one of the earlier
      rcases List.eq_nil_or_concat after with rfl | ⟨init, last, rfl⟩
      · obtain ⟨rfl, hlast'⟩ := List.append_inj' hsplit rfl
        rw [Option.toList_some, List.cons.injEq] at hlast'
        exact hlast e' (hlast'.1 ▸ rfl) haccepted
      · have hsplit' : events ++ [e] = (before ++ e' :: init) ++ [last] := by
          simpa using hsplit
        exact h before e' init (List.append_inj' hsplit' rfl).1 haccepted

/-- The frame carries something a session accepts: data, or topology that can be
read. -/
def SessionEnv.Carries (env : SessionEnv) (frame : Frame) : Prop :=
  frame.fast.typ = .data ∨
  (frame.fast.typ = .topologyUpdate ∧
    (env.topologyUpdateFromSlice frame.payloadOrCipher).isSome = true) ∨
  (frame.fast.typ = .topologyRequest ∧
    (env.topologyRequestFromSlice frame.payloadOrCipher).isSome = true)

/-- The step handles such a frame. -/
def Accepts (env : SessionEnv) (s : SessionState) (a : SessionStep) : Prop :=
  s.phase = .looping ∧ ∃ now frame written, a = .received now frame written ∧ env.Carries frame

theorem handleFrame_accepts (env : SessionEnv) (messageTx : Channel) (s : SessionState)
    (r : Registry) (now : Nat) (frame : Frame) (written : Bool) :
    (∃ e ∈ (s.handleFrame env messageTx r now frame written).event, e.isAccepted = true) ↔
      env.Carries frame := by
  unfold SessionState.handleFrame SessionEnv.Carries
  split
  next htyp => split <;> simp [htyp]
  next htyp => split <;> simp [htyp]
  next htyp =>
    split
    next => cases s.remoteNodeId <;> simp [htyp, SessionEvent.isAccepted]
    next => simp [htyp]
  next htyp => simp [htyp, SessionEvent.isAccepted]
  next htyp =>
    cases env.topologyUpdateFromSlice frame.payloadOrCipher <;>
      simp [htyp, SessionEvent.isAccepted]
  next htyp =>
    cases env.topologyRequestFromSlice frame.payloadOrCipher <;>
      simp [htyp, SessionEvent.isAccepted]
  next _ _ _ hdata hupdate hrequest =>
    refine iff_of_false (by simp) ?_
    rintro (htyp | ⟨htyp, _⟩ | ⟨htyp, _⟩)
    · exact hdata htyp
    · exact hupdate htyp
    · exact hrequest htyp

/-- A step accepts something exactly when it handles such a frame. -/
theorem step_accepts (env : SessionEnv) (messageTx : Channel) (s : SessionState) (r : Registry)
    (a : SessionStep) :
    (∃ e ∈ (s.step env messageTx r a).event, e.isAccepted = true) ↔ Accepts env s a := by
  by_cases hreceived : s.phase = .looping ∧ ∃ now frame written, a = .received now frame written
  · obtain ⟨hphase, now, frame, written, rfl⟩ := hreceived
    rw [step_received hphase, handleFrame_accepts]
    constructor
    · intro hcarries
      exact ⟨hphase, now, frame, written, rfl, hcarries⟩
    · rintro ⟨_, _, _, _, heq, hcarries⟩
      cases heq
      exact hcarries
  · refine iff_of_false ?_ ?_
    · -- the other steps emit nothing, or that the session begins or ends
      unfold SessionState.step
      split
      next => split <;> simp
      next => split <;> simp
      next now frame written hphase =>
        exact absurd ⟨hphase, now, frame, written, rfl⟩ hreceived
      next => simp
      next =>
        unfold SessionState.handleOutbound
        split
        next => simp
        next => split <;> [split <;> simp;
          simp]
      next => simp
      next => simp [SessionEvent.isAccepted]
      next => simp
      next => simp [SessionEvent.isAccepted]
      next => simp
      next => simp
      next => simp
    · rintro ⟨hphase, now, frame, written, heq, _⟩
      exact hreceived ⟨hphase, now, frame, written, heq⟩

/-- A HELLO has passed when the move accepts something. -/
def Greeted (env : SessionEnv) {messageTx : Channel} (o : Observed) : Move messageTx → Prop
  | .own a => Accepts env o.session a → o.session.remoteNodeId.isSome = true
  | _ => True

/-- In the loop, the remote node is known exactly when it was reported. -/
theorem Ledger.isSome_iff {o : Observed} (h : Ledger o) (hphase : o.session.phase = .looping) :
    o.session.remoteNodeId.isSome = true ↔ ∃ nodeId, .connected nodeId ∈ o.events := by
  cases hremote : o.session.remoteNodeId with
  | none =>
    refine iff_of_false (by simp) ?_
    rintro ⟨nodeId, hmem⟩
    exact h.silent hremote nodeId hmem
  | some nodeId =>
    exact iff_of_true rfl ⟨nodeId, h.reported nodeId hremote (.inl hphase)⟩

theorem handshakeFirst_move {env : SessionEnv} {messageTx : Channel} {o : Observed} (h : Ledger o)
    (hfirst : HandshakeFirst o.events) (m : Move messageTx) :
    HandshakeFirst (o.move env messageTx m).events ↔ Greeted env o m := by
  cases m with
  | registers nodeId other => exact iff_of_true hfirst trivial
  | unregisters nodeId => exact iff_of_true hfirst trivial
  | own a =>
    refine (handshakeFirst_append hfirst _).trans ?_
    constructor
    · intro hlast haccepts
      obtain ⟨e, he, haccepted⟩ := (step_accepts env messageTx _ o.registry a).mpr haccepts
      exact (h.isSome_iff haccepts.1).mpr (hlast e he haccepted)
    · intro hgreeted e he haccepted
      have haccepts := (step_accepts env messageTx _ o.registry a).mp ⟨e, he, haccepted⟩
      exact (h.isSome_iff haccepts.1).mp (hgreeted haccepts)

/-- **When nothing is accepted before the handshake.** In every state of a run of
a session everything it accepted came after its first `Connected` event, exactly
when each step that handles a DATA frame, or a topology frame that can be read,
finds the remote node set by a HELLO that passed. -/
theorem accepted_after_handshake_iff (env : SessionEnv) (messageTx : Channel) (registry : Registry)
    (moves : List (Move messageTx)) :
    (∀ done, done <+: moves →
      HandshakeFirst (done.foldl (Observed.move env messageTx) (.new registry)).events) ↔
    Along (Observed.move env messageTx) (Greeted env) (.new registry) moves := by
  have hnew : HandshakeFirst (Observed.new registry).events := by
    intro before e after hsplit
    simp [Observed.new] at hsplit
  have hexact : (∀ done, done <+: moves →
      Ledger (done.foldl (Observed.move env messageTx) (.new registry)) ∧
      HandshakeFirst (done.foldl (Observed.move env messageTx) (.new registry)).events) ↔
      Along (Observed.move env messageTx) (Greeted env) (.new registry) moves := by
    apply every_state_iff_along (I := fun o => Ledger o ∧ HandshakeFirst o.events)
    · rintro o m ⟨hledger, hfirst⟩
      exact (and_iff_right (hledger.move m)).trans (handshakeFirst_move hledger hfirst m)
    · exact ⟨.new registry, hnew⟩
  rw [← hexact]
  exact forall₂_congr fun done _ =>
    (and_iff_right (Ledger.run env messageTx registry done)).symm

/-- A peer that sends no HELLO has its message taken. -/
theorem accepted_without_handshake :
    ¬ HandshakeFirst ([Move.own (.start true),
        .own (.received 0 (Frame.new (FastHeader.new .data 2 1 0) [] [7]) true)].foldl
      (Observed.move (exampleEnv none) 0) (.new ∅)).events := by
  intro hfirst
  obtain ⟨nodeId, hmem⟩ := hfirst [] _ [] rfl rfl
  exact absurd hmem List.not_mem_nil

end MeshCore.Session
