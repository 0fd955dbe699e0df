import MeshCore.Lib.FairLine
import MeshCore.Network.Delivery
import MeshCore.Session.Handshake

/-!
# Readers that read before they decode (`handshake.rs`)

`recv_any_frame` reads from the socket before it asks the decoder, and asks it once for
each read. So a frame that lies complete in the buffer of a reader is decoded only when
more bytes arrive. A step `read` of the mesh decodes the next frame in any case, which is
more than the code may do.

Here a turn of a reader is what the code does: one read, of some of the bytes on the
socket, and one call of the decoder. Every run of such turns is a run of the mesh
(`ReadingMesh.mesh_runUntil`). On a socket that is written to again and again, as the
keepalives of a session do, a reader that gets its turn again and again decodes frames
again and again (`ReadingMesh.reads`).
-/

namespace MeshCore.Network

open MeshCore.Lib MeshCore.Wire MeshCore.Session
open MeshCore.Topology (NodeId)
open MeshCore.Routing

/-- A turn of a part of the mesh. A reader is given at most `size + 1` bytes. -/
structure Turn where
  step : MeshStep
  size : ℕ

/-- A mesh, and how many of the first bytes of each wire its reader has in its
`read_buffer`. -/
structure ReadingMesh where
  mesh : Mesh
  buffered : SessionEnd → ℕ

namespace ReadingMesh

/-- One turn. -/
def step (env : SessionEnv) (peer : SessionEnd → NodeId) (s : ReadingMesh) (turn : Turn) :
    ReadingMesh :=
  match turn.step with
  | .read e =>
    let buffer := (s.mesh.wire e).take (s.buffered e)
    let socket := (s.mesh.wire e).drop (s.buffered e)
    -- a read waits for bytes
    if socket = [] then s
    else
      match FrameDecoder.new.decode (buffer ++ socket.take (turn.size + 1)) with
      | (.ok (some frame), buffer) =>
        { mesh :=
            { s.mesh with
              wire := Function.update s.mesh.wire e (buffer ++ socket.drop (turn.size + 1))
              events := Function.update s.mesh.events (peer e)
                (s.mesh.events (peer e) ++ (frameEvent env frame).toList) }
          buffered := Function.update s.buffered e buffer.length }
      | (_, buffer) => { s with buffered := Function.update s.buffered e buffer.length }
  | a => { s with mesh := s.mesh.step env peer a }

/-- The mesh after the first `t` turns of an endless run. -/
def runUntil (env : SessionEnv) (peer : SessionEnd → NodeId) (manager : NodeId → SessionManager)
    (turns : ℕ → Turn) (t : ℕ) : ReadingMesh :=
  ((List.range t).map turns).foldl (step env peer)
    { mesh := .start manager, buffered := fun _ => 0 }

/-- The step of the mesh that a turn is: a read is one if a frame comes of it. -/
def acts (s : ReadingMesh) (turn : Turn) : Option MeshStep :=
  match turn.step with
  | .read e =>
    if s.buffered e < (s.mesh.wire e).length then
      match FrameDecoder.new.decode ((s.mesh.wire e).take (s.buffered e + (turn.size + 1))) with
      | (.ok (some _), _) => some (.read e)
      | _ => none
    else none
  | a => some a

/-- What is under way satisfies `P`, and a reader has no more than was written. -/
structure Ok (env : SessionEnv) (P : OutboundMessage → Prop) (s : ReadingMesh) : Prop where
  underWay : UnderWay env P s.mesh
  buffered : ∀ e, s.buffered e ≤ (s.mesh.wire e).length

section Steps

variable {env : SessionEnv} {peer : SessionEnd → NodeId} {P : OutboundMessage → Prop}

/-- A turn that is no read is its step. -/
theorem step_of_ne_read {turn : Turn} (hread : ∀ e, turn.step ≠ .read e) (s : ReadingMesh) :
    s.step env peer turn = { s with mesh := s.mesh.step env peer turn.step } := by
  obtain ⟨a, size⟩ := turn
  cases a with
  | read e => exact absurd rfl (hread e)
  | _ => rfl

theorem acts_of_ne_read {turn : Turn} (hread : ∀ e, turn.step ≠ .read e) (s : ReadingMesh) :
    s.acts turn = some turn.step := by
  obtain ⟨a, size⟩ := turn
  cases a with
  | read e => exact absurd rfl (hread e)
  | _ => rfl

theorem eq_of_acts {s : ReadingMesh} {turn : Turn} {a : MeshStep} (h : s.acts turn = some a) :
    turn.step = a := by
  obtain ⟨b, size⟩ := turn
  cases b with
  | read e =>
    unfold acts at h
    dsimp only at h
    split at h
    · split at h
      · exact Option.some.inj h
      · exact absurd h (by simp)
    · exact absurd h (by simp)
  | _ => exact Option.some.inj h

/-- A read that gives nothing waits. -/
theorem step_read_wait (env : SessionEnv) (peer : SessionEnd → NodeId) {s : ReadingMesh}
    {e : SessionEnd} {size : ℕ} (hall : (s.mesh.wire e).length ≤ s.buffered e) :
    s.step env peer ⟨.read e, size⟩ = s ∧ s.acts ⟨.read e, size⟩ = none := by
  have hsocket : (s.mesh.wire e).drop (s.buffered e) = [] := List.drop_eq_nil_of_le hall
  constructor
  · unfold step
    dsimp only
    rw [if_pos hsocket]
  · unfold acts
    dsimp only
    rw [if_neg (Nat.not_lt.mpr hall)]

/-- What is in the buffer after a read: the first bytes of what was written. -/
theorem take_append_socket (wire : Bytes) (buffered size : ℕ) :
    wire.take buffered ++ (wire.drop buffered).take (size + 1)
      = wire.take (buffered + (size + 1)) := (List.take_add ..).symm

/-- A read that completes the first frame is the step that decodes it. -/
theorem step_read_frame (env : SessionEnv) (peer : SessionEnd → NodeId) {s : ReadingMesh}
    {e : SessionEnd} {f : Frame} {rest : Bytes} {size : ℕ}
    (hf : f.WellFormed) (hwire : s.mesh.wire e = framing.encode f ++ rest)
    (hsome : s.buffered e < (s.mesh.wire e).length)
    (hwhole : f.encodedSize ≤ s.buffered e + (size + 1)) :
    s.step env peer ⟨.read e, size⟩
        = { mesh := s.mesh.step env peer (.read e)
            buffered := Function.update s.buffered e
              (rest.take (s.buffered e + (size + 1) - f.encodedSize)).length } ∧
      (s.mesh.step env peer (.read e)).wire = Function.update s.mesh.wire e rest ∧
      s.acts ⟨.read e, size⟩ = some (.read e) := by
  have hsocket : (s.mesh.wire e).drop (s.buffered e) ≠ [] := by
    rw [ne_eq, List.drop_eq_nil_iff]
    omega
  have hlength : (framing.encode f).length = f.encodedSize := f.bytes_length
  have hdecode : ∀ rest, FrameDecoder.new.decode (framing.encode f ++ rest)
      = (.ok (some f), rest) := fun rest => framing.decode_encode f rest hf
  -- the buffer is the frame, and some of what follows it
  have htake : (s.mesh.wire e).take (s.buffered e + (size + 1))
      = framing.encode f ++ rest.take (s.buffered e + (size + 1) - f.encodedSize) := by
    rw [hwire, List.take_append, hlength, List.take_of_length_le (hlength.trans_le hwhole)]
  have hdrop : (s.mesh.wire e).drop (s.buffered e + (size + 1))
      = rest.drop (s.buffered e + (size + 1) - f.encodedSize) := by
    rw [hwire, List.drop_append, hlength, List.drop_eq_nil_of_le (hlength.trans_le hwhole),
      List.nil_append]
  have hmesh : s.mesh.step env peer (.read e)
      = { s.mesh with
          wire := Function.update s.mesh.wire e rest
          events := Function.update s.mesh.events (peer e)
            (s.mesh.events (peer e) ++ (frameEvent env f).toList) } := by
    unfold Mesh.step
    dsimp only
    rw [hwire, hdecode]
  refine ⟨?_, by rw [hmesh], ?_⟩
  · rw [hmesh]
    unfold step
    dsimp only
    rw [if_neg hsocket, take_append_socket, htake, hdecode, List.drop_drop, hdrop]
    dsimp only
    rw [List.take_append_drop]
  · unfold acts
    dsimp only
    rw [if_pos hsome, htake, hdecode]

/-- A read that does not is not seen in the mesh. -/
theorem step_read_part (env : SessionEnv) (peer : SessionEnd → NodeId) {s : ReadingMesh}
    {e : SessionEnd} {f : Frame} {rest : Bytes} {size : ℕ}
    (hf : f.WellFormed) (hwire : s.mesh.wire e = framing.encode f ++ rest)
    (hsome : s.buffered e < (s.mesh.wire e).length)
    (hpart : s.buffered e + (size + 1) < f.encodedSize) :
    s.step env peer ⟨.read e, size⟩
        = { s with buffered := Function.update s.buffered e (s.buffered e + (size + 1)) } ∧
      s.acts ⟨.read e, size⟩ = none := by
  have hsocket : (s.mesh.wire e).drop (s.buffered e) ≠ [] := by
    rw [ne_eq, List.drop_eq_nil_iff]
    omega
  have hlength : (framing.encode f).length = f.encodedSize := f.bytes_length
  -- the buffer is a proper part of the frame
  have htake : (s.mesh.wire e).take (s.buffered e + (size + 1))
      = (framing.encode f).take (s.buffered e + (size + 1)) := by
    rw [hwire, List.take_append_of_le_length (by omega)]
  have hdecode : FrameDecoder.new.decode ((framing.encode f).take (s.buffered e + (size + 1)))
      = (.ok none, (framing.encode f).take (s.buffered e + (size + 1))) := by
    refine framing.decode_partial f _ ((framing.encode f).drop (s.buffered e + (size + 1))) hf
      (List.take_append_drop ..).symm ?_
    rw [ne_eq, List.drop_eq_nil_iff]
    omega
  constructor
  · unfold step
    dsimp only
    rw [if_neg hsocket, take_append_socket, htake, hdecode]
    dsimp only
    rw [List.length_take, Nat.min_eq_left (by omega)]
  · unfold acts
    dsimp only
    rw [if_pos hsome, htake, hdecode]

/-- What has been written and not decoded begins with a frame. -/
theorem Ok.first_frame {s : ReadingMesh} (h : s.Ok env P) {e : SessionEnd}
    (hsome : s.buffered e < (s.mesh.wire e).length) :
    ∃ f : Frame, f.WellFormed ∧ framing.encode f <+: s.mesh.wire e := by
  obtain ⟨frames, hwire, hframes⟩ := h.underWay.wire e
  cases frames with
  | nil =>
    rw [hwire] at hsome
    exact absurd hsome (Nat.not_lt_zero _)
  | cons f frames =>
    refine ⟨f, (hframes f (List.mem_cons_self ..)).1, framing.concat frames, ?_⟩
    rw [hwire, Framing.concat_cons]

/-- **A turn is a step of the mesh, or is not seen in it.** -/
theorem Ok.step_mesh {s : ReadingMesh} (h : s.Ok env P) (turn : Turn) :
    (s.step env peer turn).mesh
      = (s.acts turn).elim s.mesh (s.mesh.step env peer) := by
  by_cases hread : ∃ e, turn.step = .read e
  · obtain ⟨e, he⟩ := hread
    obtain ⟨a, size⟩ := turn
    obtain rfl : a = .read e := he
    by_cases hsome : s.buffered e < (s.mesh.wire e).length
    · obtain ⟨f, hf, rest, hwire⟩ := h.first_frame hsome
      by_cases hwhole : f.encodedSize ≤ s.buffered e + (size + 1)
      · obtain ⟨hstep, -, hacts⟩ :=
          step_read_frame env peer hf hwire.symm hsome hwhole
        rw [hstep, hacts]
        rfl
      · obtain ⟨hstep, hacts⟩ := step_read_part env peer hf hwire.symm hsome
          (Nat.lt_of_not_le hwhole)
        rw [hstep, hacts]
        rfl
    · obtain ⟨hstep, hacts⟩ :=
        step_read_wait env peer (Nat.le_of_not_lt hsome)
      rw [hstep, hacts]
      rfl
  · rw [step_of_ne_read (fun e he => hread ⟨e, he⟩), acts_of_ne_read fun e he => hread ⟨e, he⟩]
    rfl

/-- A turn of another part only adds to what a reader may read. -/
theorem Ok.step_other {s : ReadingMesh} (h : s.Ok env P) (peer : SessionEnd → NodeId)
    {turn : Turn} {e : SessionEnd} (hturn : turn.step ≠ .read e) :
    s.mesh.wire e <+: (s.step env peer turn).mesh.wire e ∧
      (s.step env peer turn).buffered e = s.buffered e := by
  by_cases hread : ∃ e', turn.step = .read e'
  · obtain ⟨e', he'⟩ := hread
    obtain ⟨a, size⟩ := turn
    obtain rfl : a = .read e' := he'
    have hne : e ≠ e' := fun heq => hturn (heq ▸ rfl)
    by_cases hsome : s.buffered e' < (s.mesh.wire e').length
    · obtain ⟨f, hf, rest, hwire⟩ := h.first_frame hsome
      by_cases hwhole : f.encodedSize ≤ s.buffered e' + (size + 1)
      · obtain ⟨hstep, -, -⟩ :=
          step_read_frame env peer hf hwire.symm hsome hwhole
        rw [hstep]
        exact ⟨h.underWay.wire_step hturn, Function.update_of_ne hne ..⟩
      · obtain ⟨hstep, -⟩ := step_read_part env peer hf hwire.symm hsome
          (Nat.lt_of_not_le hwhole)
        rw [hstep]
        exact ⟨List.prefix_refl _, Function.update_of_ne hne ..⟩
    · obtain ⟨hstep, -⟩ :=
        step_read_wait env peer (Nat.le_of_not_lt hsome)
      rw [hstep]
      exact ⟨List.prefix_refl _, rfl⟩
  · rw [step_of_ne_read fun e he => hread ⟨e, he⟩]
    exact ⟨h.underWay.wire_step hturn, rfl⟩

/-- **One turn.** -/
theorem Ok.step {s : ReadingMesh} (h : s.Ok env P) (hhop : SurvivesHop env P) {turn : Turn}
    (hadds : turn.step.Adds P) : (s.step env peer turn).Ok env P := by
  constructor
  · rw [h.step_mesh]
    cases hacts : s.acts turn with
    | none => exact h.underWay
    | some a => exact h.underWay.step hhop (eq_of_acts hacts ▸ hadds)
  · intro e
    by_cases hturn : turn.step = .read e
    · obtain ⟨a, size⟩ := turn
      obtain rfl : a = .read e := hturn
      by_cases hsome : s.buffered e < (s.mesh.wire e).length
      · obtain ⟨f, hf, rest, hwire⟩ := h.first_frame hsome
        have hlength : (framing.encode f).length = f.encodedSize := f.bytes_length
        by_cases hwhole : f.encodedSize ≤ s.buffered e + (size + 1)
        · obtain ⟨hstep, hrest, -⟩ :=
            step_read_frame env peer hf hwire.symm hsome hwhole
          rw [hstep]
          dsimp only
          rw [hrest, Function.update_self, Function.update_self, List.length_take]
          exact Nat.min_le_right _ _
        · obtain ⟨hstep, -⟩ := step_read_part env peer hf hwire.symm hsome
            (Nat.lt_of_not_le hwhole)
          rw [hstep]
          dsimp only
          rw [Function.update_self, ← hwire, List.length_append, hlength]
          omega
      · obtain ⟨hstep, -⟩ :=
          step_read_wait env peer (Nat.le_of_not_lt hsome)
        rw [hstep]
        exact h.buffered e
    · obtain ⟨hwire, hbuffered⟩ := h.step_other peer hturn
      rw [hbuffered]
      exact Nat.le_trans (h.buffered e) hwire.length_le

end Steps

/-! ## Runs -/

section Runs

variable {env : SessionEnv} {peer : SessionEnd → NodeId} {P : OutboundMessage → Prop}
  {manager : NodeId → SessionManager} {turns : ℕ → Turn}

theorem runUntil_succ (env : SessionEnv) (peer : SessionEnd → NodeId)
    (manager : NodeId → SessionManager) (turns : ℕ → Turn) (t : ℕ) :
    runUntil env peer manager turns (t + 1)
      = (runUntil env peer manager turns t).step env peer (turns t) := by
  unfold runUntil
  rw [List.range_succ, List.map_append, List.foldl_append]
  rfl

theorem ok_runUntil (hlocal : ∀ n, (manager n).localNodeId = n) (hhop : SurvivesHop env P)
    (hadds : ∀ t, (turns t).step.Adds P) (t : ℕ) :
    (runUntil env peer manager turns t).Ok env P := by
  induction t with
  | zero => exact ⟨.start hlocal, fun _ => Nat.le_refl _⟩
  | succ t ih =>
    rw [runUntil_succ]
    exact ih.step hhop (hadds t)

/-- The steps of the mesh that the first `t` turns are. -/
def stepsUntil (env : SessionEnv) (peer : SessionEnd → NodeId) (manager : NodeId → SessionManager)
    (turns : ℕ → Turn) (t : ℕ) : List MeshStep :=
  (List.range t).filterMap fun i => (runUntil env peer manager turns i).acts (turns i)

/-- **A run of turns is a run of the mesh.** -/
theorem mesh_runUntil (hok : ∀ t, (runUntil env peer manager turns t).Ok env P) (t : ℕ) :
    (runUntil env peer manager turns t).mesh
      = Mesh.run env peer manager (stepsUntil env peer manager turns t) := by
  induction t with
  | zero => rfl
  | succ t ih =>
    rw [runUntil_succ, (hok t).step_mesh]
    unfold stepsUntil Mesh.run at ih ⊢
    rw [List.range_succ, List.filterMap_append, List.foldl_append, ← ih]
    cases hacts : (runUntil env peer manager turns t).acts (turns t) with
    | none => simp [hacts]
    | some a => simp [hacts]

theorem mem_stepsUntil {t : ℕ} {a : MeshStep} (ha : a ∈ stepsUntil env peer manager turns t) :
    ∃ i, a = (turns i).step := by
  obtain ⟨i, -, hacts⟩ := List.mem_filterMap.mp ha
  exact ⟨i, (eq_of_acts hacts).symm⟩

/-- Until a reader is given bytes, the first frame of its wire stays, and so does what it
has of it. -/
theorem Ok.keeps_front {s : ReadingMesh} (h : s.Ok env P) (peer : SessionEnd → NodeId)
    {turn : Turn} {e : SessionEnd} {bytes : Bytes} {n d : ℕ} (hfront : bytes <+: s.mesh.wire e)
    (hle : n ≤ s.buffered e + d)
    (hnot : ¬ (turn.step = .read e ∧ s.buffered e < (s.mesh.wire e).length)) :
    bytes <+: (s.step env peer turn).mesh.wire e ∧
      n ≤ (s.step env peer turn).buffered e + d := by
  by_cases hturn : turn.step = .read e
  · obtain ⟨a, size⟩ := turn
    obtain rfl : a = .read e := hturn
    have hall := Nat.le_of_not_lt fun hlt => hnot ⟨rfl, hlt⟩
    rw [(step_read_wait env peer hall).1]
    exact ⟨hfront, hle⟩
  · obtain ⟨hwire, hbuffered⟩ := h.step_other peer hturn
    exact ⟨hfront.trans hwire, hbuffered ▸ hle⟩

/-- A socket that keepalives are written to again and again has bytes for its reader at some
later turn. -/
theorem bytes_come (hok : ∀ t, (runUntil env peer manager turns t).Ok env P) {e : SessionEnd}
    (hopen : ∀ t, (runUntil env peer manager turns t).mesh.closed e = false)
    (hpings : ∀ t, ∃ t', t ≤ t' ∧ ∃ f, (turns t').step = .keepalive e f)
    (hturns : ∀ t, ∃ t', t ≤ t' ∧ (turns t').step = .read e) (t : ℕ) :
    ∃ t', t ≤ t' ∧ (turns t').step = .read e ∧
      (runUntil env peer manager turns t').buffered e
        < ((runUntil env peer manager turns t').mesh.wire e).length := by
  obtain ⟨t₁, ht₁, f, hf⟩ := hpings t
  have hwritten : (runUntil env peer manager turns (t₁ + 1)).buffered e
      < ((runUntil env peer manager turns (t₁ + 1)).mesh.wire e).length := by
    have hread : ∀ e', (turns t₁).step ≠ .read e' := fun e' he => by
      rw [hf] at he
      exact absurd he (by simp)
    have hpos : 0 < f.1.bytes.length := List.length_pos_iff.mpr f.1.bytes_ne_nil
    have hle := (hok t₁).buffered e
    rw [runUntil_succ, step_of_ne_read hread, hf]
    unfold Mesh.step
    dsimp only
    rw [hopen t₁, if_neg (by simp)]
    dsimp only
    rw [Function.update_self, List.length_append]
    omega
  obtain ⟨t₂, ht₂, hturn, hsome⟩ := exists_next (A := fun t => (turns t).step = .read e)
    (Q := fun t => (runUntil env peer manager turns t).buffered e
      < ((runUntil env peer manager turns t).mesh.wire e).length)
    (fun t hlt hturn => by
      obtain ⟨hwire, hbuffered⟩ := (hok t).step_other peer hturn
      rw [runUntil_succ, hbuffered]
      exact Nat.lt_of_lt_of_le hlt hwire.length_le) hwritten (hturns (t₁ + 1))
  exact ⟨t₂, by omega, hturn, hsome⟩

/-- A reader that is given bytes again and again comes to the end of a frame: what it lacks
of the frame gets less. -/
theorem frame_read (hok : ∀ t, (runUntil env peer manager turns t).Ok env P) {e : SessionEnd}
    (hbytes : ∀ t, ∃ t', t ≤ t' ∧ (turns t').step = .read e ∧
      (runUntil env peer manager turns t').buffered e
        < ((runUntil env peer manager turns t').mesh.wire e).length)
    {f : Frame} (hf : f.WellFormed) (d t : ℕ)
    (hwire : framing.encode f <+: (runUntil env peer manager turns t).mesh.wire e)
    (hle : f.encodedSize ≤ (runUntil env peer manager turns t).buffered e + d) :
    ∃ t', t ≤ t' ∧ (runUntil env peer manager turns t').acts (turns t') = some (.read e) := by
  induction d using Nat.strong_induction_on generalizing t with
  | h d ih =>
    obtain ⟨t₁, ht₁, ⟨hturn, hlt⟩, ⟨rest, hwire₁⟩, hle₁⟩ := exists_next
      (A := fun t => (turns t).step = .read e ∧ (runUntil env peer manager turns t).buffered e
        < ((runUntil env peer manager turns t).mesh.wire e).length)
      (Q := fun t => framing.encode f <+: (runUntil env peer manager turns t).mesh.wire e ∧
        f.encodedSize ≤ (runUntil env peer manager turns t).buffered e + d)
      (fun t hQ hnot =>
        runUntil_succ env peer manager turns t ▸ (hok t).keeps_front peer hQ.1 hQ.2 hnot)
      ⟨hwire, hle⟩ (hbytes t)
    obtain ⟨size, hat⟩ : ∃ size, turns t₁ = ⟨.read e, size⟩ :=
      ⟨(turns t₁).size, by rw [← hturn]⟩
    by_cases hwhole : f.encodedSize
        ≤ (runUntil env peer manager turns t₁).buffered e + (size + 1)
    · obtain ⟨-, -, hacts⟩ :=
        step_read_frame env peer hf hwire₁.symm hlt hwhole
      exact ⟨t₁, ht₁, hat ▸ hacts⟩
    · obtain ⟨hstep, -⟩ := step_read_part env peer hf hwire₁.symm hlt
        (Nat.lt_of_not_le hwhole)
      have hnext : runUntil env peer manager turns (t₁ + 1) = _ :=
        (runUntil_succ env peer manager turns t₁).trans (hat ▸ hstep)
      obtain ⟨t₂, ht₂, hacts⟩ := ih (d - 1) (by omega) (t₁ + 1)
        (by rw [hnext]; exact ⟨rest, hwire₁⟩)
        (by rw [hnext]; dsimp only; rw [Function.update_self]; omega)
      exact ⟨t₂, by omega, hacts⟩

/-- **Readers go on.** On a socket that a session writes its keepalives to again and again,
a reader that gets its turn again and again decodes a frame again and again. -/
theorem reads (hok : ∀ t, (runUntil env peer manager turns t).Ok env P) {e : SessionEnd}
    (hopen : ∀ t, (runUntil env peer manager turns t).mesh.closed e = false)
    (hpings : ∀ t, ∃ t', t ≤ t' ∧ ∃ f, (turns t').step = .keepalive e f)
    (hturns : ∀ t, ∃ t', t ≤ t' ∧ (turns t').step = .read e) (t : ℕ) :
    ∃ t', t ≤ t' ∧ (runUntil env peer manager turns t').acts (turns t') = some (.read e) := by
  have hbytes := bytes_come hok hopen hpings hturns
  obtain ⟨t₁, ht₁, -, hlt⟩ := hbytes t
  obtain ⟨f, hf, hwire⟩ := (hok t₁).first_frame hlt
  obtain ⟨t₂, ht₂, hacts⟩ := frame_read hok hbytes hf f.encodedSize t₁ hwire (Nat.le_add_left ..)
  exact ⟨t₂, Nat.le_trans ht₁ ht₂, hacts⟩

end Runs

end ReadingMesh

end MeshCore.Network
