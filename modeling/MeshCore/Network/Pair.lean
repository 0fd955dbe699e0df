import MeshCore.Network.Transcript

/-!
# The two ends of a connection

Two sessions write to each other and read what the other has written, each in its own
task: any step of one may come between any two steps of the other, writes may fail, and
either may leave its loop or be aborted at any time.

What one has read is an initial part of what the other has written (`PairInv.split`), so
that each knows the other from its HELLO, before anything else, and every PONG answers one
of its PINGs, in order and at most once (`sessions_agree`).

Mirroring notes:
- A reader may take the next frame as soon as all of it has been written.
- `read`, `pinged` and `ponged` are the history: what was decoded, and when PINGs were
  written and PONGs read.
-/

namespace MeshCore.Network

open MeshCore.Lib MeshCore.Wire MeshCore.Session
open MeshCore.Topology (NodeId)

/-- What a session is started with at one end of a connection. -/
structure PairEnd where
  nodeId : NodeId
  env : SessionEnv
  messageTx : Channel

/-- One end of a connection. -/
structure Side where
  session : SessionState
  registry : Registry
  events : List SessionEvent
  /-- All bytes it has written. -/
  sent : Bytes
  /-- The bytes of the other end it has not decoded yet. -/
  pending : Bytes
  read : List Frame
  pinged : List (UInt64 × Nat)
  ponged : List (UInt64 × Nat)

/-- The two ends of a connection. -/
abbrev Pair := Bool → Side

/-- One step of one end. -/
inductive PairStep where
  /-- Anything but reading a frame. -/
  | act (b : Bool) (a : SessionStep)
  | receive (b : Bool) (now : Nat) (written : Bool)

/-- Its transcript, when these are the frames it has written. -/
def Side.transcript (x : Side) (written : List Frame) : Transcript :=
  { session := x.session, events := x.events, written, read := x.read, pinged := x.pinged
    ponged := x.ponged }

/-- The bytes a step writes. -/
def Side.writes (self : PairEnd) (x : Side) (a : SessionStep) : Bytes :=
  (sessionStepWrites self.env self.nodeId x.session.phase a).getD []

/-- A step of the session. -/
def Side.perform (self : PairEnd) (x : Side) (a : SessionStep) : Side :=
  let o := x.session.step self.env self.messageTx x.registry a
  { session := o.session
    registry := o.registry
    events := x.events ++ o.event.toList
    sent := x.sent ++ x.writes self a
    pending := x.pending
    read := x.read
    pinged := x.pinged ++ (stepPings x.session.phase a).toList
    ponged := x.ponged ++ (stepPongs x.session.phase a).toList }

namespace Pair

variable (ends : Bool → PairEnd)

/-- One end takes a step, and what it writes is on its way to the other. -/
def perform (p : Pair) (b : Bool) (a : SessionStep) : Pair := fun b' =>
  if b' = b then (p b).perform (ends b) a
  else { p b' with pending := (p b').pending ++ (p b).writes (ends b) a }

/-- One step. -/
def step (p : Pair) : PairStep → Pair
  | .act _ (.received ..) => p
  | .act b a => perform ends p b a
  | .receive b now written =>
    if (p b).session.phase = .looping then
      match FrameDecoder.new.decode (p b).pending with
      | (.ok (some frame), rest) =>
        perform ends
          (Function.update p b { p b with pending := rest, read := (p b).read ++ [frame] }) b
          (.received now frame written)
      | (.ok none, _) => p
      | (.error _, _) => perform ends p b .readError
    else p

/-- Before either session has done anything. -/
def start (registry : Bool → Registry) : Pair := fun b =>
  { session := .new, registry := registry b, events := [], sent := [], pending := [], read := []
    pinged := [], ponged := [] }

/-- The state after some steps. -/
def run (registry : Bool → Registry) (steps : List PairStep) : Pair :=
  steps.foldl (step ends) (start registry)

end Pair

/-! ## What holds in every run -/

/-- What is under way is the difference between what one has written and what the other has
read; and each end's transcript is in order. -/
structure PairInv (ends : Bool → PairEnd) (p : Pair) (written unread : Bool → List Frame) :
    Prop where
  sent : ∀ b, (p b).sent = framing.concat (written b)
  pending : ∀ b, (p b).pending = framing.concat (unread b)
  split : ∀ b, written (!b) = (p b).read ++ unread b
  wellFormed : ∀ b, ∀ f ∈ written b, f.WellFormed
  voice : ∀ b, Voice (ends b).nodeId ((p b).transcript (written b))
  ears : ∀ b, Ears ((p b).transcript (written b))
  acquainted : ∀ b, Acquainted (ends b).env (ends (!b)).nodeId ((p b).transcript (written b))

section Run

variable {ends : Bool → PairEnd}

theorem pairInv_start (registry : Bool → Registry) :
    PairInv ends (Pair.start registry) (fun _ => []) (fun _ => []) where
  sent _ := rfl
  pending _ := rfl
  split _ := rfl
  wellFormed _ _ h := absurd h (by simp)
  voice _ :=
    { silent := fun _ => rfl
      spoken := fun h => absurd rfl h
      greeting := .inl rfl
      pings := rfl
      pongs := ⟨[], rfl, .inl rfl⟩ }
  ears _ :=
    { ponged := rfl
      outstanding := fun _ _ h => absurd h (by simp [Side.transcript, Pair.start, SessionState.new])
      measured := fun _ _ h => absurd h (by simp [Side.transcript, Pair.start]) }
  acquainted _ :=
    .stranger rfl rfl (by simp [Side.transcript, Pair.start, SessionState.new]) (.inl rfl)

/-- The state of an end that has just read a frame, if any. -/
def reading (p : Pair) (b : Bool) (frame : Option Frame) (rest : Bytes) : Pair :=
  Function.update p b { p b with pending := rest, read := (p b).read ++ frame.toList }

/-- The end itself goes on. -/
theorem perform_self (p : Pair) (b : Bool) (a : SessionStep) (rest : Bytes) (written : List Frame)
    (f : Option Frame) :
    (Pair.perform ends (reading p b (stepReads a) rest) b a b).transcript (written ++ f.toList)
      = ((p b).transcript written).after (ends b).env (ends b).messageTx (p b).registry a f := by
  unfold Pair.perform reading
  rw [if_pos rfl, Function.update_self]
  rfl

theorem perform_self_pending (p : Pair) (b : Bool) (a : SessionStep) (rest : Bytes) :
    (Pair.perform ends (reading p b (stepReads a) rest) b a b).pending = rest := by
  unfold Pair.perform reading
  rw [if_pos rfl, Function.update_self]
  rfl

theorem perform_self_sent (p : Pair) (b : Bool) (a : SessionStep) (rest : Bytes) :
    (Pair.perform ends (reading p b (stepReads a) rest) b a b).sent
      = (p b).sent ++ (p b).writes (ends b) a := by
  unfold Pair.perform reading
  rw [if_pos rfl, Function.update_self]
  rfl

theorem perform_self_read (p : Pair) (b : Bool) (a : SessionStep) (rest : Bytes) :
    (Pair.perform ends (reading p b (stepReads a) rest) b a b).read
      = (p b).read ++ (stepReads a).toList := by
  unfold Pair.perform reading
  rw [if_pos rfl, Function.update_self]
  rfl

/-- The other end only gets more to read. -/
theorem perform_other (p : Pair) (b : Bool) (a : SessionStep) (rest : Bytes) :
    Pair.perform ends (reading p b (stepReads a) rest) b a (!b)
      = { p (!b) with pending := (p (!b)).pending ++ (p b).writes (ends b) a } := by
  unfold Pair.perform reading
  rw [if_neg (by simp), Function.update_self, Function.update_of_ne (by simp)]
  rfl

/-- A step of one end. -/
theorem PairInv.performs {p : Pair} {written unread : Bool → List Frame}
    (h : PairInv ends p written unread) (hgreets : ∀ b, Greets (ends b).env.crates) (b : Bool)
    {a : SessionStep} {rest : List Frame} (hunread : unread b = (stepReads a).toList ++ rest)
    (hloops : (stepReads a).isSome → (p b).session.phase = .looping) :
    ∃ written' unread',
      PairInv ends (Pair.perform ends (reading p b (stepReads a) (framing.concat rest)) b a)
        written' unread' := by
  obtain ⟨f, hbytes, hwf, hwrites⟩ :=
    writes_frame (hgreets b) (ends b).nodeId (p b).session.phase a
  have hbytes' : (p b).writes (ends b) a = framing.concat f.toList := hbytes
  have hread : (p b).read ++ (stepReads a).toList <+: written (!b) :=
    ⟨rest, by rw [h.split b, hunread, List.append_assoc]⟩
  refine ⟨Function.update written b (written b ++ f.toList),
    fun b' => if b' = b then rest else unread b' ++ f.toList, ?_, ?_, ?_, ?_, ?_, ?_, ?_⟩
  · intro b'
    rcases Bool.eq_or_eq_not b' b with rfl | rfl
    · rw [perform_self_sent, Function.update_self, Framing.concat_append, h.sent, hbytes']
    · rw [perform_other, Function.update_of_ne (by simp)]
      exact h.sent _
  · intro b'
    rcases Bool.eq_or_eq_not b' b with rfl | rfl
    · rw [perform_self_pending, if_pos rfl]
    · rw [perform_other, if_neg (by simp), Framing.concat_append, ← h.pending, hbytes']
  · intro b'
    rcases Bool.eq_or_eq_not b' b with rfl | rfl
    · rw [perform_self_read, if_pos rfl, Function.update_of_ne (by simp), h.split, hunread,
        List.append_assoc]
    · rw [perform_other, if_neg (by simp), Bool.not_not, Function.update_self, ← List.append_assoc,
        ← h.split, Bool.not_not]
  · intro b' g hg
    rcases Bool.eq_or_eq_not b' b with rfl | rfl
    · rw [Function.update_self] at hg
      rcases List.mem_append.mp hg with hg | hg
      · exact h.wellFormed _ g hg
      · exact hwf g (Option.mem_toList.mp hg)
    · rw [Function.update_of_ne (by simp)] at hg
      exact h.wellFormed _ g hg
  · intro b'
    rcases Bool.eq_or_eq_not b' b with rfl | rfl
    · rw [Function.update_self, perform_self]
      exact (h.voice _).after hwrites hloops
    · rw [Function.update_of_ne (by simp), perform_other]
      exact h.voice _
  · intro b'
    rcases Bool.eq_or_eq_not b' b with rfl | rfl
    · rw [Function.update_self, perform_self]
      exact (h.ears _).after hloops
    · rw [Function.update_of_ne (by simp), perform_other]
      exact h.ears _
  · intro b'
    rcases Bool.eq_or_eq_not b' b with rfl | rfl
    · rw [Function.update_self, perform_self]
      exact (h.acquainted _).after hloops ((h.voice _).greeting.initial hread)
    · rw [Function.update_of_ne (by simp), perform_other]
      exact h.acquainted _

/-- Every step. -/
theorem PairInv.step {p : Pair} {written unread : Bool → List Frame}
    (h : PairInv ends p written unread) (hgreets : ∀ b, Greets (ends b).env.crates) (s : PairStep) :
    ∃ written' unread', PairInv ends (p.step ends s) written' unread' := by
  -- without reading, what is under way stays as it is
  have hact : ∀ b a, stepReads a = none →
      ∃ written' unread', PairInv ends (p.perform ends b a) written' unread' := by
    intro b a hreads
    have hunread : unread b = (stepReads a).toList ++ unread b := by rw [hreads]; rfl
    obtain ⟨written', unread', h'⟩ := h.performs hgreets b hunread (by rw [hreads]; simp)
    have hsame : reading p b (stepReads a) (framing.concat (unread b)) = p := by
      unfold reading
      rw [hreads, ← h.pending, Option.toList_none, List.append_nil]
      exact Function.update_eq_self b p
    exact ⟨written', unread', hsame ▸ h'⟩
  cases s with
  | act b a =>
    cases a with
    | received _ _ _ => exact ⟨written, unread, h⟩
    | _ => exact hact b _ rfl
  | receive b now w =>
    unfold Pair.step
    dsimp only
    by_cases hphase : (p b).session.phase = .looping
    · rw [if_pos hphase]
      cases hunread : unread b with
      | nil =>
        have hdecode : FrameDecoder.new.decode (p b).pending = (.ok none, []) := by
          rw [h.pending, hunread]
          exact framing.decode_nil
        rw [hdecode]
        exact ⟨written, unread, h⟩
      | cons frame rest =>
        have hwf : frame.WellFormed := by
          refine h.wellFormed (!b) frame ?_
          rw [h.split, hunread]
          exact List.mem_append_right _ (List.mem_cons_self ..)
        have hdecode : FrameDecoder.new.decode (p b).pending
            = (.ok (some frame), framing.concat rest) := by
          rw [h.pending, hunread]
          exact framing.decode_encode frame _ hwf
        rw [hdecode]
        exact h.performs hgreets b (a := .received now frame w) hunread fun _ => hphase
    · rw [if_neg hphase]
      exact ⟨written, unread, h⟩

/-- Every run. -/
theorem pairInv_run (hgreets : ∀ b, Greets (ends b).env.crates) (registry : Bool → Registry)
    (steps : List PairStep) :
    ∃ written unread, PairInv ends (Pair.run ends registry steps) written unread := by
  induction steps using List.reverseRecOn with
  | nil => exact ⟨_, _, pairInv_start registry⟩
  | append_singleton steps s ih =>
    obtain ⟨written, unread, h⟩ := ih
    unfold Pair.run at h ⊢
    rw [List.foldl_append]
    exact h.step hgreets s

end Run

/-! ## What the ends know of each other -/

/-- The events of a session whose other end is this node: nothing, or that an unknown peer
is gone, or who is connected and then what concerns it. -/
def Reported (env : SessionEnv) (other : NodeId) (events : List SessionEvent) : Prop :=
  events = [] ∨ events = [.disconnected none] ∨
    (turnsAway env other = false ∧ ∃ rest, events = .connected (nameOf env other) :: rest ∧
      ∀ e ∈ rest, AboutPeer (nameOf env other) e)

theorem Acquainted.reported {env : SessionEnv} {other : NodeId} {t : Transcript}
    (h : Acquainted env other t) : Reported env other t.events := by
  cases h with
  | stranger hread hremote hphase hevents => exact hevents.imp_right fun h => .inl h.2
  | refused _ _ _ hevents => exact .inl hevents
  | noticed _ _ _ _ hevents => exact .inl hevents
  | met rest _ hpasses _ _ hevents hrest => exact .inr (.inr ⟨hpasses, rest, hevents, hrest⟩)

/-- A verified name is the node's own. -/
theorem nameOf_eq {env : SessionEnv} {other : NodeId} (hverify : env.verifyNodeId = true)
    (hpasses : turnsAway env other = false) : nameOf env other = other := by
  unfold turnsAway at hpasses
  unfold nameOf
  cases htls : env.tlsNodeId with
  | none => rfl
  | some tlsId => simpa [hverify, htls] using hpasses

/-- **What the two ends of a connection know of each other.** In every run, whatever the
order of their steps: each has read an initial part of what the other has written, the
other's HELLO first and no second one; it reports that it is connected to the other at most
once, before anything else, under the name it has checked; the PONGs it has read answer its
own PINGs one by one, and every round-trip time it reports is the time between the two. -/
theorem sessions_agree (ends : Bool → PairEnd) (hgreets : ∀ b, Greets (ends b).env.crates)
    (registry : Bool → Registry) (steps : List PairStep) (b : Bool) :
    let p := Pair.run ends registry steps
    let env := (ends b).env
    let other := (ends (!b)).nodeId
    (p b).read <+: framesOn (p (!b)).sent ∧
    Greeting other (p b).read ∧
    Reported env other (p b).events ∧
    (env.verifyNodeId = true → ∀ n, .connected n ∈ (p b).events → n = other) ∧
    (p b).ponged.map Prod.fst <+: (p b).pinged.map Prod.fst ∧
    ∀ n rtt, .pong n rtt ∈ (p b).events → ∃ corrId sent now,
      (corrId, sent) ∈ (p b).pinged ∧ (corrId, now) ∈ (p b).ponged ∧ rtt = now - sent := by
  obtain ⟨written, unread, h⟩ := pairInv_run hgreets registry steps
  intro p env other
  have hread : (p b).read <+: written (!b) := ⟨unread b, (h.split b).symm⟩
  have hreported : Reported env other (p b).events := (h.acquainted b).reported
  refine ⟨?_, (h.voice (!b)).greeting.initial hread, hreported, ?_, ?_, (h.ears b).measured⟩
  · rw [h.sent, framesOn_concat (h.wellFormed (!b))]
    exact hread
  · intro hverify n hn
    rcases hreported with hnil | hgone | ⟨hpasses, rest, hevents, hrest⟩
    · rw [hnil] at hn
      exact absurd hn (by simp)
    · rw [hgone] at hn
      exact absurd hn (by simp)
    · rw [hevents] at hn
      rcases List.mem_cons.mp hn with hn | hn
      · rw [SessionEvent.connected.inj hn]
        exact nameOf_eq hverify hpasses
      · exact absurd (hrest _ hn) not_false
  · obtain ⟨lost, hlost, -⟩ := (h.voice (!b)).pongs
    have hother : (p (!b)).read <+: written b := ⟨unread (!b), by rw [← h.split, Bool.not_not]⟩
    calc (p b).ponged.map Prod.fst
        = corrIds .pong (p b).read := (h.ears b).ponged
      _ <+: corrIds .pong (written (!b)) := corrIds_prefix hread
      _ <+: corrIds .ping (p (!b)).read := ⟨lost, hlost⟩
      _ <+: corrIds .ping (written b) := corrIds_prefix hother
      _ = (p b).pinged.map Prod.fst := (h.voice b).pings

/-- Nodes 1 and 2. -/
def twoEnds (b : Bool) : PairEnd :=
  { nodeId := if b then 2 else 1
    env :=
      { crates := .standard, fromReader := fun _ => none, verifyNodeId := true, tlsNodeId := none
        topologyUpdateFromSlice := fun _ => none, topologyRequestFromSlice := fun _ => none }
    messageTx := 0 }

/-- They greet each other, and node 1 measures the round trip. -/
def greetAndPing : List PairStep :=
  [.act false (.start true), .act true (.start true), .receive true 0 true, .act true .proceed,
    .receive false 0 true, .act false .proceed, .act false (.pingTick 10 7 true),
    .receive true 12 true, .receive false 15 true]

theorem sessions_agree_ping :
    let p := Pair.run twoEnds (fun _ => ∅) greetAndPing
    (p false).events = [.connected 2, .pong 2 5] ∧
    (p false).read <+: framesOn (p true).sent ∧ Greeting 2 (p false).read ∧
    Reported (twoEnds false).env 2 (p false).events ∧
    (p false).ponged.map Prod.fst <+: (p false).pinged.map Prod.fst ∧
    ∀ n rtt, .pong n rtt ∈ (p false).events → ∃ corrId sent now,
      (corrId, sent) ∈ (p false).pinged ∧ (corrId, now) ∈ (p false).ponged ∧ rtt = now - sent := by
  obtain ⟨hread, hgreeting, hreported, -, hpongs, hmeasured⟩ :=
    sessions_agree twoEnds (fun _ => greets_standard) (fun _ => ∅) greetAndPing false
  exact ⟨by decide +kernel, hread, hgreeting, hreported, hpongs, hmeasured⟩

end MeshCore.Network
