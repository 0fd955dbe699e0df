import MeshCore.Network.Flows
import MeshCore.Session.Keepalive

/-!
# What a session writes and what it has read

A session answers what it reads: its first frame is its HELLO, every PING gets its PONG,
and what it believes about the other end comes from the HELLO it has read. `Transcript` is a
session with everything it has written, read and emitted so far; `Voice`, `Ears` and
`Acquainted` hold in all its runs.

Mirroring notes:
- A write that fails leaves at most part of a frame, after which the session writes nothing
  any more; the decoder of the other end never gets beyond it, so nothing is added.
- `pinged` and `ponged` are the history of the keepalive: when PINGs were written and PONGs
  read.
-/

namespace MeshCore.Network

open MeshCore.Lib MeshCore.Wire MeshCore.Session
open MeshCore.Topology (NodeId)

/-- What a session with this node ID writes in a step, unless the write fails. -/
def sessionStepWrites (env : SessionEnv) (myNodeId : NodeId) (phase : Phase) (a : SessionStep) :
    Option Bytes :=
  match phase, a with
  | .greeting, .start true => (sendHello env.crates myNodeId).toOption
  | .looping, .pingTick _ corrId true => (buildPing env.crates myNodeId corrId).toOption
  | .looping, .received _ frame true =>
    if frame.fast.typ = .ping then (buildPong env.crates myNodeId frame.fast.corrId).toOption
    else none
  | .looping, .outbound message true => sessionWrites env.crates message
  | _, _ => none

/-- The PING a step writes, and the time. -/
def stepPings (phase : Phase) (a : SessionStep) : Option (UInt64 × Nat) :=
  match phase, a with
  | .looping, .pingTick now corrId true => some (corrId, now)
  | _, _ => none

/-- The PONG a step reads, and the time. -/
def stepPongs (phase : Phase) (a : SessionStep) : Option (UInt64 × Nat) :=
  match phase, a with
  | .looping, .received now frame _ =>
    if frame.fast.typ = .pong then some (frame.fast.corrId, now) else none
  | _, _ => none

/-! ## What is written -/

/-- The correlation IDs of the frames of a type. -/
def corrIds (typ : FrameType) (frames : List Frame) : List UInt64 :=
  (frames.filter fun f => f.fast.typ = typ).map fun f => f.fast.corrId

theorem corrIds_append (typ : FrameType) (frames frames' : List Frame) :
    corrIds typ (frames ++ frames') = corrIds typ frames ++ corrIds typ frames' := by
  unfold corrIds
  rw [List.filter_append, List.map_append]

theorem corrIds_prefix {typ : FrameType} {frames frames' : List Frame} (h : frames <+: frames') :
    corrIds typ frames <+: corrIds typ frames' :=
  (h.filter _).map _

/-- The frames of a step's bytes: none, or one. -/
inductive Writes (myNodeId : NodeId) (phase : Phase) (a : SessionStep) : Option Frame → Prop where
  | nothing (hstart : ¬ (phase = .greeting ∧ a = .start true)) (hping : stepPings phase a = none)
      (hpong : ∀ now frame, phase = .looping → a = .received now frame true →
        frame.fast.typ ≠ .ping) : Writes myNodeId phase a none
  | hello {f : Frame} (hphase : phase = .greeting) (ha : a = .start true)
      (htyp : f.fast.typ = .hello) (hsrc : f.fast.srcNode = myNodeId) :
      Writes myNodeId phase a (some f)
  | ping {f : Frame} {now : Nat} (hphase : phase = .looping)
      (ha : a = .pingTick now f.fast.corrId true) (htyp : f.fast.typ = .ping) :
      Writes myNodeId phase a (some f)
  | pong {f frame : Frame} {now : Nat} (hphase : phase = .looping)
      (ha : a = .received now frame true) (hping : frame.fast.typ = .ping)
      (htyp : f.fast.typ = .pong) (hcorr : f.fast.corrId = frame.fast.corrId) :
      Writes myNodeId phase a (some f)
  | message {f : Frame} {m : OutboundMessage} (hphase : phase = .looping)
      (ha : a = .outbound m true) (htyp : f.fast.typ = .data ∨ f.fast.typ = .topologyUpdate) :
      Writes myNodeId phase a (some f)

/-- **What a session writes**: its own frames, and those of the messages it is given. -/
theorem writes_frame {env : SessionEnv} (hgreets : Greets env.crates) (myNodeId : NodeId)
    (phase : Phase) (a : SessionStep) :
    ∃ f : Option Frame, (sessionStepWrites env myNodeId phase a).getD []
        = framing.concat f.toList ∧
      (∀ g ∈ f, g.WellFormed) ∧ Writes myNodeId phase a f := by
  have hone : ∀ {f : Frame} {bytes : Bytes} {x : Option Bytes}, x = some bytes → bytes = f.bytes →
      x.getD [] = framing.concat (some f).toList := by
    intro f bytes x hx hbytes
    rw [hx, Option.getD_some, hbytes, Option.toList_some, concat_singleton_frame]
  unfold sessionStepWrites
  split
  next =>
    obtain ⟨f, hf, hwf, htyp, hsrc⟩ := sendHello_frame hgreets myNodeId
    exact ⟨some f, hone (by rw [hf]; rfl) rfl, by simpa using hwf, .hello rfl rfl htyp hsrc⟩
  next now corrId =>
    obtain ⟨f, hf, hwf, htyp, -, hcorr⟩ := buildPing_frame hgreets myNodeId corrId
    exact ⟨some f, hone (by rw [hf]; rfl) rfl, by simpa using hwf, .ping rfl (by rw [hcorr]) htyp⟩
  next now frame =>
    split
    next hping =>
      obtain ⟨f, hf, hwf, htyp, -, hcorr⟩ := buildPong_frame hgreets myNodeId frame.fast.corrId
      exact ⟨some f, hone (by rw [hf]; rfl) rfl, by simpa using hwf,
        .pong rfl rfl hping htyp hcorr⟩
    next hping =>
      refine ⟨none, rfl, by simp, .nothing (by simp) rfl ?_⟩
      intro now' frame' _ heq
      rw [← (SessionStep.received.inj heq).2.1]
      exact hping
  next message =>
    cases hwrites : sessionWrites env.crates message with
    | none => exact ⟨none, rfl, by simp, .nothing (by simp) rfl (by simp)⟩
    | some bytes =>
      obtain ⟨-, metaRaw, -, -, hbytes, hwf⟩ := sessionWrites_eq_some hwrites
      exact ⟨some (message.frame metaRaw), hone rfl hbytes, by simpa using hwf,
        .message rfl rfl (frameType_cases message)⟩
  next hstart hping hreceived _ =>
    refine ⟨none, rfl, by simp, .nothing (fun h => hstart h.1 h.2) ?_ ?_⟩
    · unfold stepPings
      split
      next => exact absurd rfl (hping _ _ rfl)
      next => rfl
    · intro now frame hphase ha
      exact absurd ha (hreceived _ _ hphase)

/-! ## The transcript -/

/-- The frame a step reads. -/
def stepReads : SessionStep → Option Frame
  | .received _ frame _ => some frame
  | _ => none

/-- A session, and what it has done. -/
structure Transcript where
  session : SessionState
  events : List SessionEvent
  written : List Frame
  read : List Frame
  pinged : List (UInt64 × Nat)
  ponged : List (UInt64 × Nat)

/-- A session that starts. -/
def Transcript.new : Transcript := ⟨.new, [], [], [], [], []⟩

/-- The transcript after a step in which the session writes `f`. -/
def Transcript.after (env : SessionEnv) (messageTx : Channel) (r : Registry) (t : Transcript)
    (a : SessionStep) (f : Option Frame) : Transcript :=
  let o := t.session.step env messageTx r a
  { session := o.session
    events := t.events ++ o.event.toList
    written := t.written ++ f.toList
    read := t.read ++ (stepReads a).toList
    pinged := t.pinged ++ (stepPings t.session.phase a).toList
    ponged := t.ponged ++ (stepPongs t.session.phase a).toList }

/-! ## The voice -/

/-- No frame, or a HELLO of the node first and no other later. -/
def Greeting (nodeId : NodeId) (frames : List Frame) : Prop :=
  frames = [] ∨ ∃ hello rest, frames = hello :: rest ∧ hello.fast.typ = .hello ∧
    hello.fast.srcNode = nodeId ∧ ∀ f ∈ rest, f.fast.typ ≠ .hello

/-- A later frame that is no HELLO. -/
theorem Greeting.append {nodeId : NodeId} {frames : List Frame} (h : Greeting nodeId frames)
    (hne : frames ≠ []) {f : Frame} (hf : f.fast.typ ≠ .hello) :
    Greeting nodeId (frames ++ [f]) := by
  obtain rfl | ⟨hello, rest, rfl, htyp, hsrc, hrest⟩ := h
  · exact absurd rfl hne
  · refine .inr ⟨hello, rest ++ [f], rfl, htyp, hsrc, fun g hg => ?_⟩
    rcases List.mem_append.mp hg with hg | hg
    · exact hrest g hg
    · rw [List.mem_singleton.mp hg]
      exact hf

/-- An initial part of such frames. -/
theorem Greeting.initial {nodeId : NodeId} {frames frames' : List Frame}
    (h : Greeting nodeId frames) (hinitial : frames' <+: frames) : Greeting nodeId frames' := by
  obtain ⟨later, rfl⟩ := hinitial
  cases frames' with
  | nil => exact .inl rfl
  | cons hello' rest' =>
    obtain hnil | ⟨hello, rest, heq, htyp, hsrc, hrest⟩ := h
    · exact absurd hnil (by simp)
    · obtain ⟨rfl, rfl⟩ := List.cons.inj heq
      exact .inr ⟨_, rest', rfl, htyp, hsrc, fun f hf => hrest f (List.mem_append_left _ hf)⟩

/-- The loop is over. -/
def Phase.isOver : Phase → Bool
  | .leaving => true
  | .unregistered => true
  | .ended => true
  | _ => false

/-- What a session has written, beside what it has read. -/
structure Voice (nodeId : NodeId) (t : Transcript) : Prop where
  silent : t.session.phase = .greeting → t.written = []
  spoken : t.session.phase ≠ .greeting → t.session.phase ≠ .ended → t.written ≠ []
  greeting : Greeting nodeId t.written
  pings : corrIds .ping t.written = t.pinged.map Prod.fst
  /-- Only the last PING may be without its PONG, when writing it has failed. -/
  pongs : ∃ lost, corrIds .pong t.written ++ lost = corrIds .ping t.read ∧
    (lost = [] ∨ Phase.isOver t.session.phase = true)

section Phases

variable {env : SessionEnv} {messageTx : Channel} {s : SessionState} {r : Registry}
  {a : SessionStep} {o : Outcome}

/-- Only a session that has not started stands before its start. -/
theorem greeting_before (he : Effect env messageTx s r a o)
    (h : o.session.phase = .greeting) : s.phase = .greeting := by
  cases he with
  | stay _ hphase _ _ => exact hphase.symm.trans h
  | _ => exact Phase.noConfusion h

/-- A session that is under way was so before, or starts. -/
theorem underway_before (he : Effect env messageTx s r a o) (h : o.session.phase ≠ .greeting)
    (hended : o.session.phase ≠ .ended) :
    (s.phase = .greeting ∧ a = .start true) ∨ (s.phase ≠ .greeting ∧ s.phase ≠ .ended) := by
  cases he with
  | stay _ hphase _ _ => exact .inr ⟨hphase ▸ h, hphase ▸ hended⟩
  | start hphase => exact .inl ⟨hphase, rfl⟩
  | startFails _ => exact absurd rfl hended
  | refuse _ _ _ => exact absurd rfl hended
  | disconnect _ => exact absurd rfl hended
  | abort _ => exact absurd rfl hended
  | register hphase _ _ => exact .inr (by rw [hphase]; simp)
  | connect hphase => exact .inr (by rw [hphase]; simp)
  | leave hphase _ => exact .inr (by rw [hphase]; simp)
  | unregister hphase _ => exact .inr (by rw [hphase]; simp)
  | pass hphase _ => exact .inr (by rw [hphase]; simp)

/-- A loop that is over is not entered again. -/
theorem over_after (he : Effect env messageTx s r a o) (h : Phase.isOver s.phase = true) :
    Phase.isOver o.session.phase = true := by
  cases he with
  | stay _ hphase _ _ => exact hphase ▸ h
  | start hphase => simp [hphase, Phase.isOver] at h
  | register hphase _ _ => simp [hphase, Phase.isOver] at h
  | connect hphase => simp [hphase, Phase.isOver] at h
  | _ => rfl

end Phases

theorem corrIds_of_ne {typ : FrameType} {f : Frame} (h : f.fast.typ ≠ typ) :
    corrIds typ [f] = [] := by
  unfold corrIds
  rw [List.filter_cons_of_neg (by simpa using h), List.filter_nil, List.map_nil]

theorem corrIds_of_eq {typ : FrameType} {f : Frame} (h : f.fast.typ = typ) :
    corrIds typ [f] = [f.fast.corrId] := by
  unfold corrIds
  rw [List.filter_cons_of_pos (by simpa using h), List.filter_nil, List.map_cons, List.map_nil]

/-- The frame of a message is of no other type. -/
theorem message_ne {f : Frame} (h : f.fast.typ = .data ∨ f.fast.typ = .topologyUpdate)
    {typ : FrameType} (htyp : typ ≠ .data ∧ typ ≠ .topologyUpdate) : f.fast.typ ≠ typ := by
  rcases h with h | h
  · exact h ▸ htyp.1.symm
  · exact h ▸ htyp.2.symm

section Step

variable {env : SessionEnv} {messageTx : Channel} {r : Registry} {nodeId : NodeId}
  {t : Transcript} {a : SessionStep} {f : Option Frame}

/-- A PING that is read is answered, or the loop is over. -/
theorem Writes.answers (hwrites : Writes nodeId t.session.phase a f)
    (hloops : (stepReads a).isSome → t.session.phase = .looping) :
    ∃ lost, corrIds .pong f.toList ++ lost = corrIds .ping (stepReads a).toList ∧
      (lost = [] ∨ Phase.isOver (t.session.step env messageTx r a).session.phase = true) := by
  cases hwrites with
  | nothing hstart hping hpong =>
    cases a with
    | received now frame written =>
      have hphase := hloops rfl
      by_cases htyp : frame.fast.typ = .ping
      · cases written with
        | true => exact absurd htyp (hpong now frame hphase rfl)
        | false =>
          -- its PONG could not be written
          refine ⟨[frame.fast.corrId], (corrIds_of_eq htyp).symm, .inr ?_⟩
          rw [step_received hphase]
          unfold SessionState.handleFrame
          rw [htyp]
          rfl
      · exact ⟨[], (corrIds_of_ne htyp).symm, .inl rfl⟩
    | _ => exact ⟨[], rfl, .inl rfl⟩
  | hello hphase ha htyp hsrc =>
    subst ha
    refine ⟨[], ?_, .inl rfl⟩
    rw [List.append_nil, Option.toList_some, corrIds_of_ne (by rw [htyp]; simp)]
    rfl
  | ping hphase ha htyp =>
    subst ha
    refine ⟨[], ?_, .inl rfl⟩
    rw [List.append_nil, Option.toList_some, corrIds_of_ne (by rw [htyp]; simp)]
    rfl
  | pong hphase ha hping htyp hcorr =>
    subst ha
    refine ⟨[], ?_, .inl rfl⟩
    rw [List.append_nil, Option.toList_some, corrIds_of_eq htyp, hcorr]
    exact (corrIds_of_eq hping).symm
  | message hphase ha htyp =>
    subst ha
    refine ⟨[], ?_, .inl rfl⟩
    rw [List.append_nil, Option.toList_some, corrIds_of_ne (message_ne htyp (by simp))]
    rfl

/-- The PINGs a step writes are those it records. -/
theorem Writes.pings (hwrites : Writes nodeId t.session.phase a f) :
    corrIds .ping f.toList = (stepPings t.session.phase a).toList.map Prod.fst := by
  cases hwrites with
  | nothing hstart hping hpong => rw [hping]; rfl
  | hello hphase ha htyp hsrc =>
    rw [hphase, ha]
    exact corrIds_of_ne (by rw [htyp]; simp)
  | ping hphase ha htyp =>
    rw [hphase, ha]
    exact corrIds_of_eq htyp
  | pong hphase ha hping htyp hcorr =>
    rw [hphase, ha]
    exact corrIds_of_ne (by rw [htyp]; simp)
  | message hphase ha htyp =>
    rw [hphase, ha]
    exact corrIds_of_ne (message_ne htyp (by simp))

/-- After its loop a session writes nothing. -/
theorem Writes.over (hwrites : Writes nodeId t.session.phase a f)
    (hover : Phase.isOver t.session.phase = true) : f = none := by
  cases hwrites with
  | nothing _ _ _ => rfl
  | hello hphase _ _ _ => simp [hphase, Phase.isOver] at hover
  | ping hphase _ _ => simp [hphase, Phase.isOver] at hover
  | pong hphase _ _ _ _ => simp [hphase, Phase.isOver] at hover
  | message hphase _ _ => simp [hphase, Phase.isOver] at hover

/-- What a session writes is its HELLO, at its start, or comes after it. -/
theorem Writes.later {g : Frame} (hwrites : Writes nodeId t.session.phase a (some g)) :
    (t.session.phase = .greeting ∧ a = .start true ∧ g.fast.typ = .hello ∧
      g.fast.srcNode = nodeId) ∨ (t.session.phase = .looping ∧ g.fast.typ ≠ .hello) := by
  cases hwrites with
  | hello hphase ha htyp hsrc => exact .inl ⟨hphase, ha, htyp, hsrc⟩
  | ping hphase ha htyp => exact .inr ⟨hphase, by rw [htyp]; simp⟩
  | pong hphase ha hping htyp hcorr => exact .inr ⟨hphase, by rw [htyp]; simp⟩
  | message hphase ha htyp =>
    exact .inr ⟨hphase, message_ne htyp (by simp)⟩

theorem Voice.greeting_after (h : Voice nodeId t) (hwrites : Writes nodeId t.session.phase a f) :
    Greeting nodeId (t.written ++ f.toList) := by
  cases f with
  | none =>
    rw [Option.toList_none, List.append_nil]
    exact h.greeting
  | some g =>
    rcases hwrites.later with ⟨hphase, ha, htyp, hsrc⟩ | ⟨hphase, htyp⟩
    · rw [h.silent hphase]
      exact .inr ⟨g, [], rfl, htyp, hsrc, by simp⟩
    · exact h.greeting.append (h.spoken (by rw [hphase]; simp) (by rw [hphase]; simp)) htyp

/-- Every step keeps it. -/
theorem Voice.after (h : Voice nodeId t) (hwrites : Writes nodeId t.session.phase a f)
    (hloops : (stepReads a).isSome → t.session.phase = .looping) :
    Voice nodeId (t.after env messageTx r a f) := by
  have he := step_effect env messageTx t.session r a
  refine ⟨?silent, ?spoken, h.greeting_after hwrites, ?pings, ?pongs⟩
  case silent =>
    intro hgreeting
    have hphase : t.session.phase = .greeting := greeting_before he hgreeting
    cases f with
    | none => exact (List.append_nil _).trans (h.silent hphase)
    | some g =>
      rcases hwrites.later with ⟨-, rfl, -⟩ | ⟨hlooping, -⟩
      · have hstarts : (t.session.step env messageTx r (.start true)).session.phase = .looping := by
          unfold SessionState.step
          rw [hphase]
          rfl
        exact absurd (hstarts.symm.trans hgreeting) (by simp)
      · exact absurd (hlooping.symm.trans hphase) (by simp)
  case spoken =>
    intro hgreeting hended
    rcases underway_before he hgreeting hended with ⟨hphase, rfl⟩ | ⟨hphase, hphase'⟩
    · cases hwrites with
      | nothing hstart _ _ => exact absurd ⟨hphase, rfl⟩ hstart
      | hello _ _ _ _ => exact List.append_ne_nil_of_right_ne_nil _ (by simp)
      | ping _ ha _ => exact absurd ha (by simp)
      | pong _ ha _ _ _ => exact absurd ha (by simp)
      | message _ ha _ => exact absurd ha (by simp)
    · exact List.append_ne_nil_of_left_ne_nil (h.spoken hphase hphase') _
  case pings =>
    show corrIds .ping (t.written ++ f.toList) = (t.pinged ++ _).map Prod.fst
    rw [corrIds_append, h.pings, hwrites.pings, List.map_append]
  case pongs =>
    obtain ⟨lost, hlost, hover⟩ := h.pongs
    show ∃ lost, corrIds .pong (t.written ++ f.toList) ++ lost
      = corrIds .ping (t.read ++ (stepReads a).toList) ∧ _
    rw [corrIds_append, corrIds_append, ← hlost]
    rcases hover with rfl | hover
    · obtain ⟨lost', hlost', hover'⟩ := hwrites.answers hloops
      refine ⟨lost', ?_, hover'⟩
      rw [List.append_nil, List.append_assoc, hlost']
    · have hreads : stepReads a = none := by
        by_contra hreads
        have hphase := hloops (Option.isSome_iff_ne_none.mpr hreads)
        simp [hphase, Phase.isOver] at hover
      refine ⟨lost, ?_, .inr (over_after he hover)⟩
      rw [hwrites.over hover, hreads]
      simp [corrIds]

end Step

/-! ## The ears -/

/-- What a step does to the keepalive. -/
inductive Keeps (s : SessionState) (o : Outcome) : SessionStep → Prop where
  | same {a : SessionStep} (hsame : o.session.keepalive = s.keepalive)
      (hevent : ∀ n rtt, o.event ≠ some (.pong n rtt)) : Keeps s o a
  | ping {now : Nat} {corrId : UInt64} (hphase : s.phase = .looping)
      (hkeeps : o.session.keepalive = s.keepalive.recordPing corrId now) (hevent : o.event = none) :
      Keeps s o (.pingTick now corrId true)
  | pong {now : Nat} {frame : Frame} {written : Bool} {rtt : Nat} (hphase : s.phase = .looping)
      (htyp : frame.fast.typ = .pong)
      (hkeeps : s.keepalive.processPong frame.fast.corrId now = some (rtt, o.session.keepalive))
      (hevent : o.event = s.remoteNodeId.map fun n => .pong n rtt) :
      Keeps s o (.received now frame written)

theorem handleFrame_keeps (env : SessionEnv) (messageTx : Channel) (s : SessionState) (r : Registry)
    (now : Nat) (frame : Frame) (written : Bool) (hphase : s.phase = .looping) :
    Keeps s (s.handleFrame env messageTx r now frame written) (.received now frame written) := by
  unfold SessionState.handleFrame
  split
  next =>
    split
    next => exact .same rfl (by simp)
    next => exact .same rfl (by simp)
  next =>
    split
    next => exact .same rfl (by simp)
    next => exact .same rfl (by simp)
  next htyp =>
    split
    next rtt keepalive hpong =>
      exact .pong hphase htyp hpong rfl
    next => exact .same rfl (by simp)
  next => exact .same rfl (by simp)
  next => exact .same rfl (by simp)
  next => exact .same rfl (by simp)
  next => exact .same rfl (by simp)

theorem step_keeps (env : SessionEnv) (messageTx : Channel) (s : SessionState) (r : Registry)
    (a : SessionStep) : Keeps s (s.step env messageTx r a) a := by
  unfold SessionState.step
  split
  next => split <;> exact .same rfl (by simp)
  next hphase =>
    split
    next hwritten => exact hwritten ▸ .ping hphase rfl rfl
    next => exact .same rfl (by simp)
  next hphase => exact handleFrame_keeps env messageTx s r _ _ _ hphase
  next => exact .same rfl (by simp)
  next =>
    unfold SessionState.handleOutbound
    split
    next => exact .same rfl (by simp)
    next => split <;> [split <;> exact .same rfl (by simp); exact .same rfl (by simp)]
  next => exact .same rfl (by simp)
  next => exact .same rfl (by simp)
  next => exact .same rfl (by simp)
  next => exact .same rfl (by simp)
  next => exact .same rfl (by simp)
  next => exact .same rfl (by simp)
  next => exact .same rfl (by simp)

/-- What a session makes of the PONGs it reads. -/
structure Ears (t : Transcript) : Prop where
  ponged : t.ponged.map Prod.fst = corrIds .pong t.read
  outstanding : ∀ corrId sent, t.session.keepalive.outstanding.lookup corrId = some sent →
    (corrId, sent) ∈ t.pinged
  measured : ∀ n rtt, .pong n rtt ∈ t.events →
    ∃ corrId sent now, (corrId, sent) ∈ t.pinged ∧ (corrId, now) ∈ t.ponged ∧ rtt = now - sent

/-- A PING that is outstanding after another has been written. -/
theorem recordPing_outstanding {k : KeepaliveState} {corrId corrId' : UInt64} {now sent : Nat}
    (h : (k.recordPing corrId now).outstanding.lookup corrId' = some sent) :
    k.outstanding.lookup corrId' = some sent ∨ (corrId', sent) = (corrId, now) := by
  unfold KeepaliveState.recordPing at h
  dsimp only at h
  obtain ⟨-, hinsert⟩ := Option.ite_none_right_eq_some.mp ((HashMap.lookup_retain ..).symm.trans h)
  rw [HashMap.lookup_insert_ite] at hinsert
  by_cases heq : corrId' = corrId
  · rw [if_pos heq] at hinsert
    exact .inr (by rw [heq, Option.some.inj hinsert])
  · rw [if_neg heq] at hinsert
    exact .inl hinsert

/-- The PONGs a step reads are those it records. -/
theorem ponged_reads {phase : Phase} {a : SessionStep}
    (hloops : (stepReads a).isSome → phase = .looping) :
    (stepPongs phase a).toList.map Prod.fst = corrIds .pong (stepReads a).toList := by
  cases a with
  | received now frame written =>
    rw [hloops rfl]
    unfold stepPongs stepReads
    dsimp only
    by_cases htyp : frame.fast.typ = .pong
    · rw [if_pos htyp]
      exact (corrIds_of_eq htyp).symm
    · rw [if_neg htyp]
      exact (corrIds_of_ne htyp).symm
  | _ => cases phase <;> rfl

/-- Every step keeps it. -/
theorem Ears.after {env : SessionEnv} {messageTx : Channel} {r : Registry} {t : Transcript}
    (h : Ears t) {a : SessionStep} {f : Option Frame}
    (hloops : (stepReads a).isSome → t.session.phase = .looping) :
    Ears (t.after env messageTx r a f) := by
  have hkeeps := step_keeps env messageTx t.session r a
  have hponged : (t.ponged ++ (stepPongs t.session.phase a).toList).map Prod.fst
      = corrIds .pong (t.read ++ (stepReads a).toList) := by
    rw [List.map_append, corrIds_append, h.ponged, ponged_reads hloops]
  have hmeasured : ∀ n rtt, .pong n rtt ∈ t.events →
      ∃ corrId sent now, (corrId, sent) ∈ t.pinged ++ (stepPings t.session.phase a).toList ∧
        (corrId, now) ∈ t.ponged ++ (stepPongs t.session.phase a).toList ∧ rtt = now - sent := by
    intro n rtt hmem
    obtain ⟨corrId, sent, now, hpinged, hponged, hrtt⟩ := h.measured n rtt hmem
    exact ⟨corrId, sent, now, List.mem_append_left _ hpinged, List.mem_append_left _ hponged, hrtt⟩
  cases hkeeps with
  | same hsame hevent =>
    refine ⟨hponged, fun corrId sent hlookup => ?_, fun n rtt hmem => ?_⟩
    · exact List.mem_append_left _ (h.outstanding corrId sent (hsame ▸ hlookup))
    · rcases List.mem_append.mp hmem with hmem | hmem
      · exact hmeasured n rtt hmem
      · exact absurd (Option.mem_toList.mp hmem) (hevent n rtt)
  | @ping now corrId hphase hkeeps hevent =>
    refine ⟨hponged, fun corrId' sent hlookup => ?_, fun n rtt hmem => ?_⟩
    · rcases recordPing_outstanding (hkeeps ▸ hlookup) with hold | hnew
      · exact List.mem_append_left _ (h.outstanding corrId' sent hold)
      · refine List.mem_append_right _ ?_
        rw [hphase, hnew]
        exact List.mem_singleton_self _
    · rcases List.mem_append.mp hmem with hmem | hmem
      · exact hmeasured n rtt hmem
      · rw [hevent] at hmem
        exact absurd hmem (by simp)
  | @pong now frame written rtt hphase htyp hkeeps hevent =>
    obtain ⟨sent, hsent, heq⟩ := Option.map_eq_some_iff.mp hkeeps
    obtain ⟨hrtt, hkeepalive⟩ := Prod.mk.inj heq
    have hpinged := h.outstanding frame.fast.corrId sent hsent
    refine ⟨hponged, fun corrId' sent' hlookup => ?_, fun n rtt' hmem => ?_⟩
    · -- one less is outstanding
      refine List.mem_append_left _ (h.outstanding corrId' sent' ?_)
      have hlookup' : (t.session.keepalive.outstanding.erase frame.fast.corrId).lookup corrId'
          = some sent' := by
        rw [← hlookup]
        exact congrArg (fun k : KeepaliveState => k.outstanding.lookup corrId') hkeepalive
      by_cases hcorr : corrId' = frame.fast.corrId
      · rw [hcorr, AList.lookup_erase] at hlookup'
        exact absurd hlookup' (by simp)
      · rwa [AList.lookup_erase_ne hcorr] at hlookup'
    · rcases List.mem_append.mp hmem with hmem | hmem
      · exact hmeasured n rtt' hmem
      · rw [hevent] at hmem
        obtain ⟨n', -, hpong⟩ := Option.map_eq_some_iff.mp (Option.mem_toList.mp hmem)
        refine ⟨frame.fast.corrId, sent, now, List.mem_append_left _ hpinged,
          List.mem_append_right _ ?_, ?_⟩
        · rw [hphase]
          unfold stepPongs
          dsimp only
          rw [if_pos htyp]
          exact List.mem_singleton_self _
        · rw [hrtt]
          exact (SessionEvent.pong.inj hpong).2.symm

/-! ## The acquaintance -/

/-- The HELLO of this node fails the check. -/
def turnsAway (env : SessionEnv) (other : NodeId) : Bool :=
  env.verifyNodeId && env.tlsNodeId.any fun tlsId => tlsId != other

/-- What a session calls the node whose HELLO it has read. -/
def nameOf (env : SessionEnv) (other : NodeId) : NodeId := env.tlsNodeId.getD other

/-- An event of a session that is connected to this node. -/
def AboutPeer (nodeId : NodeId) : SessionEvent → Prop
  | .connected _ => False
  | .disconnected remote => remote = some nodeId
  | .pong n _ => n = nodeId
  | _ => True

/-- What a session makes of the other end. -/
inductive Acquainted (env : SessionEnv) (other : NodeId) (t : Transcript) : Prop where
  | stranger (hread : t.read = []) (hremote : t.session.remoteNodeId = none)
      (hphase : ∀ n, t.session.phase ≠ .notifying n)
      (hevents : t.events = [] ∨
        (t.session.phase = .ended ∧ t.events = [.disconnected none]))
  | refused (hread : t.read ≠ []) (hrefuses : turnsAway env other = true)
      (hphase : t.session.phase = .ended) (hevents : t.events = [])
  | noticed (hread : t.read ≠ []) (hpasses : turnsAway env other = false)
      (hremote : t.session.remoteNodeId = some (nameOf env other))
      (hphase : t.session.phase = .notifying (nameOf env other) ∨ t.session.phase = .ended)
      (hevents : t.events = [])
  | met (rest : List SessionEvent) (hread : t.read ≠ []) (hpasses : turnsAway env other = false)
      (hremote : t.session.remoteNodeId = some (nameOf env other))
      (hphase : t.session.phase ≠ .greeting ∧ ∀ n, t.session.phase ≠ .notifying n)
      (hevents : t.events = .connected (nameOf env other) :: rest)
      (hrest : ∀ e ∈ rest, AboutPeer (nameOf env other) e)

/-- Without reading, a session only reports that it begins or ends. -/
theorem step_unread (env : SessionEnv) (messageTx : Channel) (s : SessionState) (r : Registry)
    {a : SessionStep} (hreads : stepReads a = none) :
    ∀ e ∈ (s.step env messageTx r a).event, e.isLifecycle = true := by
  unfold SessionState.step
  split
  next => split <;> simp
  next => split <;> simp
  next => exact absurd hreads (by simp [stepReads])
  next => simp
  next =>
    unfold SessionState.handleOutbound
    split
    next => simp
    next => split <;> [split <;> simp; simp]
  next => simp
  next => simp [SessionEvent.isLifecycle]
  next => simp
  next => simp [SessionEvent.isLifecycle]
  next => simp
  next => simp
  next => simp

/-- A round-trip time is reported for the node of the session. -/
theorem step_pong (env : SessionEnv) (messageTx : Channel) (s : SessionState) (r : Registry)
    (a : SessionStep) {n : NodeId} {rtt : Nat}
    (hevent : (s.step env messageTx r a).event = some (.pong n rtt)) :
    s.remoteNodeId = some n := by
  cases step_keeps env messageTx s r a with
  | same hsame hnone => exact absurd hevent (hnone n rtt)
  | ping hphase hkeeps hnone => exact absurd (hnone.symm.trans hevent) (by simp)
  | pong hphase htyp hkeeps hmap =>
    obtain ⟨n', hremote, heq⟩ := Option.map_eq_some_iff.mp (hmap.symm.trans hevent)
    rw [hremote, (SessionEvent.pong.inj heq).1]

/-- What a session reports otherwise is about the node it is connected to. -/
theorem aboutPeer_of_report {env : SessionEnv} {messageTx : Channel} {s : SessionState}
    {r : Registry} {a : SessionStep} {nodeId : NodeId} (hremote : s.remoteNodeId = some nodeId)
    {e : SessionEvent} (he : (s.step env messageTx r a).event = some e)
    (hreport : e.isLifecycle = false) : AboutPeer nodeId e := by
  cases e with
  | connected n => exact absurd hreport (by simp [SessionEvent.isLifecycle])
  | disconnected n => exact absurd hreport (by simp [SessionEvent.isLifecycle])
  | pong n rtt => exact Option.some.inj ((step_pong env messageTx s r a he).symm.trans hremote)
  | _ => trivial

theorem none_of_unread {event : Option SessionEvent} (h : ∀ e ∈ event, e.isLifecycle = true)
    (h' : ∀ e ∈ event, e.isLifecycle = false) : event = none := by
  cases event with
  | none => rfl
  | some e => exact absurd ((h e rfl).symm.trans (h' e rfl)) (by simp)

section Meeting

variable {env : SessionEnv} {messageTx : Channel} {r : Registry} {other : NodeId} {t : Transcript}
  {a : SessionStep} {f : Option Frame}

/-- A session that has heard nothing yet, and goes on without reading. -/
theorem Acquainted.of_stranger (hread : t.read = []) (hremote : t.session.remoteNodeId = none)
    (hphase : ∀ n, t.session.phase ≠ .notifying n)
    (hevents : t.events = [] ∨ (t.session.phase = .ended ∧ t.events = [.disconnected none]))
    (hreads : stepReads a = none) : Acquainted env other (t.after env messageTx r a f) := by
  have hread' : t.read ++ (stepReads a).toList = [] := by
    rw [hread, hreads]
    rfl
  have hunread := step_unread env messageTx t.session r hreads
  have he := step_effect env messageTx t.session r a
  have hquiet : t.session.phase ≠ .ended → t.events = [] := fun hended =>
    hevents.resolve_right fun h => hended h.1
  unfold Transcript.after
  dsimp only
  generalize t.session.step env messageTx r a = o at hunread he
  cases he with
  | stay hremote' hphase' _ hevent =>
    have hnone := none_of_unread hunread hevent
    refine .stranger hread' (hremote'.trans hremote) (fun n => hphase' ▸ hphase n) ?_
    rw [hnone, Option.toList_none, List.append_nil]
    exact hphase' ▸ hevents
  | start hgreeting =>
    exact .stranger hread' hremote (by simp)
      (.inl ((List.append_nil _).trans (hquiet (by rw [hgreeting]; simp))))
  | startFails hgreeting =>
    exact .stranger hread' hremote (by simp [SessionState.ends])
      (.inl ((List.append_nil _).trans (hquiet (by rw [hgreeting]; simp))))
  | refuse _ _ _ => exact absurd hreads (by simp [stepReads])
  | register _ _ _ => exact absurd hreads (by simp [stepReads])
  | connect hnotifying => exact absurd hnotifying (hphase _)
  | leave hlooping _ =>
    exact .stranger hread' hremote (by simp [SessionState.leaves])
      (.inl ((List.append_nil _).trans (hquiet (by rw [hlooping]; simp))))
  | unregister _ hsome => exact absurd (hremote.symm.trans hsome) (by simp)
  | pass hleaving _ =>
    exact .stranger hread' hremote (by simp)
      (.inl ((List.append_nil _).trans (hquiet (by rw [hleaving]; simp))))
  | disconnect hunregistered =>
    refine .stranger hread' hremote (by simp) (.inr ⟨rfl, ?_⟩)
    rw [hquiet (by rw [hunregistered]; simp), hremote]
    rfl
  | abort hended =>
    exact .stranger hread' hremote (by simp [SessionState.ends])
      (.inl ((List.append_nil _).trans (hquiet hended)))

/-- The HELLO is read. -/
theorem Acquainted.of_hello (hlooping : t.session.phase = .looping)
    (hevents : t.events = []) {now : Nat} {frame : Frame} {written : Bool}
    (htyp : frame.fast.typ = .hello) (hsrc : frame.fast.srcNode = other) :
    Acquainted env other (t.after env messageTx r (.received now frame written) f) := by
  have hread' : t.read ++ (stepReads (.received now frame written)).toList ≠ [] :=
    List.append_ne_nil_of_right_ne_nil _ (by simp [stepReads])
  have hrefuses : env.refuses frame = turnsAway env other := by
    unfold SessionEnv.refuses turnsAway
    rw [hsrc]
  have hname : env.verifiedNodeId frame = nameOf env other := by
    unfold SessionEnv.verifiedNodeId nameOf
    rw [hsrc]
  unfold Transcript.after
  rw [step_received hlooping, hevents]
  unfold SessionState.handleFrame
  rw [htyp]
  cases hturns : turnsAway env other with
  | true =>
    dsimp only
    rw [hrefuses, hturns, if_pos rfl]
    exact .refused hread' hturns rfl rfl
  | false =>
    dsimp only
    rw [hrefuses, hturns, if_neg (by simp), hname]
    exact .noticed hread' hturns rfl (.inl rfl) rfl

/-- A session that has registered the node. -/
theorem Acquainted.of_noticed (hread : t.read ≠ []) (hpasses : turnsAway env other = false)
    (hremote : t.session.remoteNodeId = some (nameOf env other))
    (hphase : t.session.phase = .notifying (nameOf env other)) (hevents : t.events = [])
    (hreads : stepReads a = none) : Acquainted env other (t.after env messageTx r a f) := by
  have hread' : t.read ++ (stepReads a).toList ≠ [] :=
    List.append_ne_nil_of_left_ne_nil hread _
  have hunread := step_unread env messageTx t.session r hreads
  have he := step_effect env messageTx t.session r a
  have hother : ∀ phase, t.session.phase = phase → phase = .notifying (nameOf env other) :=
    fun phase h => h.symm.trans hphase
  unfold Transcript.after
  rw [hevents]
  dsimp only
  generalize t.session.step env messageTx r a = o at hunread he
  cases he with
  | stay hremote' hphase' _ hevent =>
    have hnone := none_of_unread hunread hevent
    refine .noticed hread' hpasses (hremote'.trans hremote) (.inl (hphase'.trans hphase)) ?_
    rw [hnone]
    rfl
  | connect hnotifying =>
    rw [Phase.notifying.inj (hother _ hnotifying)]
    exact .met [] hread' hpasses hremote (by simp) rfl (by simp)
  | abort _ => exact .noticed hread' hpasses hremote (.inr rfl) rfl
  | start hcase => exact absurd (hother _ hcase) (by simp)
  | startFails hcase => exact absurd (hother _ hcase) (by simp)
  | refuse hcase _ _ => exact absurd (hother _ hcase) (by simp)
  | register hcase _ _ => exact absurd (hother _ hcase) (by simp)
  | leave hcase _ => exact absurd (hother _ hcase) (by simp)
  | unregister hcase _ => exact absurd (hother _ hcase) (by simp)
  | pass hcase _ => exact absurd (hother _ hcase) (by simp)
  | disconnect hcase => exact absurd (hother _ hcase) (by simp)

/-- A session that has reported the node. -/
theorem Acquainted.of_met {rest : List SessionEvent} (hread : t.read ≠ [])
    (hpasses : turnsAway env other = false)
    (hremote : t.session.remoteNodeId = some (nameOf env other))
    (hphase : t.session.phase ≠ .greeting ∧ ∀ n, t.session.phase ≠ .notifying n)
    (hevents : t.events = .connected (nameOf env other) :: rest)
    (hrest : ∀ e ∈ rest, AboutPeer (nameOf env other) e)
    (hreads : ∀ frame, stepReads a = some frame → frame.fast.typ ≠ .hello) :
    Acquainted env other (t.after env messageTx r a f) := by
  have hread' : t.read ++ (stepReads a).toList ≠ [] :=
    List.append_ne_nil_of_left_ne_nil hread _
  have habout : ∀ e, (t.session.step env messageTx r a).event = some e →
      e.isLifecycle = false → AboutPeer (nameOf env other) e := fun e =>
    aboutPeer_of_report hremote
  have he := step_effect env messageTx t.session r a
  unfold Transcript.after
  rw [hevents]
  generalize t.session.step env messageTx r a = o at habout he
  cases he with
  | stay hremote' hphase' _ hevent =>
    refine .met _ hread' hpasses (hremote'.trans hremote) (hphase' ▸ hphase) rfl fun e hmem => ?_
    rcases List.mem_append.mp hmem with hmem | hmem
    · exact hrest e hmem
    · have hsome := Option.mem_toList.mp hmem
      exact habout e hsome (hevent e hsome)
  | start hgreeting => exact absurd hgreeting hphase.1
  | startFails hgreeting => exact absurd hgreeting hphase.1
  | refuse _ hhello _ => exact absurd hhello (hreads _ rfl)
  | register _ hhello _ => exact absurd hhello (hreads _ rfl)
  | connect hnotifying => exact absurd hnotifying (hphase.2 _)
  | leave hlooping _ =>
    exact .met rest hread' hpasses hremote (by simp [SessionState.leaves]) (List.append_nil _) hrest
  | unregister hleaving _ =>
    exact .met rest hread' hpasses hremote (by simp) (List.append_nil _) hrest
  | pass hleaving _ =>
    exact .met rest hread' hpasses hremote (by simp) (List.append_nil _) hrest
  | disconnect hunregistered =>
    refine .met _ hread' hpasses hremote (by simp) rfl fun e hmem => ?_
    rcases List.mem_append.mp hmem with hmem | hmem
    · exact hrest e hmem
    · rw [List.mem_singleton.mp hmem]
      exact hremote
  | abort _ =>
    exact .met rest hread' hpasses hremote (by simp [SessionState.ends]) (List.append_nil _) hrest

/-- Every step keeps it, when the other end says HELLO first and no second time. -/
theorem Acquainted.after (h : Acquainted env other t)
    (hloops : (stepReads a).isSome → t.session.phase = .looping)
    (hgreeting : Greeting other (t.read ++ (stepReads a).toList)) :
    Acquainted env other (t.after env messageTx r a f) := by
  have hended : t.session.phase = .ended → stepReads a = none ∧
      t.after env messageTx r a f = { t with written := t.written ++ f.toList } := by
    intro hended
    have hreads : stepReads a = none := by
      by_contra hreads
      exact absurd (hended.symm.trans (hloops (Option.isSome_iff_ne_none.mpr hreads))) (by simp)
    refine ⟨hreads, ?_⟩
    unfold Transcript.after
    rw [step_ended hended, hreads, hended]
    simp [SessionState.stays, stepPings, stepPongs]
  cases h with
  | stranger hread hremote hphase hevents =>
    cases hreads : stepReads a with
    | none => exact .of_stranger hread hremote hphase hevents hreads
    | some frame =>
      have hlooping := hloops (by rw [hreads]; rfl)
      have hquiet : t.events = [] := hevents.resolve_right fun h => by simp [hlooping] at h
      cases a with
      | received now frame' written =>
        rw [hread] at hgreeting
        obtain hnil | ⟨hello, rest, heq, htyp, hsrc, -⟩ := hgreeting
        · exact absurd hnil (by simp [stepReads])
        · obtain ⟨rfl, -⟩ := List.cons.inj heq
          exact .of_hello hlooping hquiet htyp hsrc
      | _ => exact absurd hreads (by simp [stepReads])
  | refused hread hrefuses hphase hevents =>
    rw [(hended hphase).2]
    exact .refused hread hrefuses hphase hevents
  | noticed hread hpasses hremote hphase hevents =>
    rcases hphase with hphase | hphase
    · have hreads : stepReads a = none := by
        by_contra hreads
        exact absurd (hphase.symm.trans (hloops (Option.isSome_iff_ne_none.mpr hreads))) (by simp)
      exact .of_noticed hread hpasses hremote hphase hevents hreads
    · rw [(hended hphase).2]
      exact .noticed hread hpasses hremote (.inr hphase) hevents
  | met rest hread hpasses hremote hphase hevents hrest =>
    refine .of_met hread hpasses hremote hphase hevents hrest fun frame hframe => ?_
    rw [hframe] at hgreeting
    obtain hnil | ⟨hello, later, heq, -, -, hlater⟩ := hgreeting
    · exact absurd hnil (by simp)
    · refine hlater frame ?_
      cases hcase : t.read with
      | nil => exact absurd hcase hread
      | cons first rest' =>
        rw [hcase] at heq
        rw [← (List.cons.inj heq).2]
        exact List.mem_append_right _ (List.mem_singleton_self _)

end Meeting

end MeshCore.Network
