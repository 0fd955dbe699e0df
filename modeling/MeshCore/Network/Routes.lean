import MeshCore.Network.Mesh

/-!
# Routes, and the queues along them

A route is a path of sessions from node to node. A message that follows it lies, one after
the other, in `outbound_rx` of its source, in the channel and on the socket of each hop, in
the event queue of the node at the other end, and with the service of the destination.
These places make a line (`Route.line`), in which each occurs once, and `next_entry`,
`next_queue` and `next_wire` say which place comes next.
-/

namespace MeshCore.Network

open MeshCore.Lib MeshCore.Wire MeshCore.Session
open MeshCore.Topology (NodeId)
open MeshCore.Routing

/-! ## Places -/

/-- Where a message may lie. -/
inductive Place where
  | outbound (n : NodeId)
  | events (n : NodeId)
  | queue (e : SessionEnd)
  | wire (e : SessionEnd)
  | delivered (n : NodeId)
  deriving DecidableEq

/-! ## Routes -/

/-- Following these ends leads from one node to the other. -/
def Leads (peer : SessionEnd → NodeId) : NodeId → List SessionEnd → NodeId → Prop
  | n, [], dst => n = dst
  | n, e :: rest, dst => e.1 = n ∧ Leads peer (peer e) rest dst

/-- A path from node to node, by the ends of the sessions it goes over, which visits no
node twice. -/
structure Route (peer : SessionEnd → NodeId) (src dst : NodeId) where
  hops : List SessionEnd
  leads : Leads peer src hops dst
  nodup : (hops.map Prod.fst ++ [dst]).Nodup

/-- The places from one of a node's queues on. -/
def lineFrom (peer : SessionEnd → NodeId) (entry : Place) (n : NodeId) :
    List SessionEnd → List Place
  | [] => [entry, .delivered n]
  | e :: rest => entry :: .queue e :: .wire e :: lineFrom peer (.events (peer e)) (peer e) rest

/-- A queue of a node's manager. -/
def Place.IsEntry (p : Place) (n : NodeId) : Prop := p = .outbound n ∨ p = .events n

section Line

variable {peer : SessionEnd → NodeId}

theorem Leads.head {n dst : NodeId} {hops : List SessionEnd} (h : Leads peer n hops dst) :
    n ∈ hops.map Prod.fst ++ [dst] := by
  cases hops with
  | nil => exact List.mem_singleton.mpr h
  | cons e rest => exact List.mem_append_left _ (List.mem_cons.mpr (.inl h.1.symm))

theorem lineFrom_getLast? {n dst : NodeId} {entry : Place} {hops : List SessionEnd}
    (h : Leads peer n hops dst) :
    (lineFrom peer entry n hops).getLast? = some (.delivered dst) := by
  induction hops generalizing n entry with
  | nil =>
    obtain rfl : n = dst := h
    rfl
  | cons e rest ih =>
    have hrest : (lineFrom peer (.events (peer e)) (peer e) rest).getLast?
        = some (.delivered dst) := ih h.2
    unfold lineFrom
    rw [List.getLast?_cons_cons, List.getLast?_cons_cons, List.getLast?_cons, hrest]
    rfl

/-- Which places lie in a line. -/
theorem mem_lineFrom {n dst : NodeId} {entry : Place} {hops : List SessionEnd}
    (h : Leads peer n hops dst) {p : Place} (hp : p ∈ lineFrom peer entry n hops) :
    p = entry ∨ (∃ e ∈ hops, p = .queue e ∨ p = .wire e) ∨
      (∃ m ∈ (hops.map Prod.fst ++ [dst]).tail, p = .events m) ∨ p = .delivered dst := by
  induction hops generalizing n entry with
  | nil =>
    obtain rfl : n = dst := h
    unfold lineFrom at hp
    rcases List.mem_pair.mp hp with hp | hp
    · exact .inl hp
    · exact .inr (.inr (.inr hp))
  | cons e rest ih =>
    unfold lineFrom at hp
    rcases List.mem_cons.mp hp with hp | hp
    · exact .inl hp
    rcases List.mem_cons.mp hp with hp | hp
    · exact .inr (.inl ⟨e, List.mem_cons_self .., .inl hp⟩)
    rcases List.mem_cons.mp hp with hp | hp
    · exact .inr (.inl ⟨e, List.mem_cons_self .., .inr hp⟩)
    rcases ih h.2 hp with hp | ⟨e', he', hp⟩ | ⟨m, hm, hp⟩ | hp
    · exact .inr (.inr (.inl ⟨peer e, h.2.head, hp⟩))
    · exact .inr (.inl ⟨e', List.mem_cons_of_mem _ he', hp⟩)
    · exact .inr (.inr (.inl ⟨m, List.mem_of_mem_tail hm, hp⟩))
    · exact .inr (.inr (.inr hp))

/-- No place of a line is visited twice. -/
theorem nodup_lineFrom {n dst : NodeId} {entry : Place} (hentry : entry.IsEntry n)
    {hops : List SessionEnd} (h : Leads peer n hops dst)
    (hnd : (hops.map Prod.fst ++ [dst]).Nodup) : (lineFrom peer entry n hops).Nodup := by
  induction hops generalizing n entry with
  | nil =>
    unfold lineFrom
    refine List.nodup_cons.mpr ⟨?_, List.nodup_singleton _⟩
    rcases hentry with rfl | rfl <;> simp
  | cons e rest ih =>
    obtain ⟨rfl, hrest⟩ := h
    rw [List.map_cons, List.cons_append, List.nodup_cons] at hnd
    obtain ⟨he, hnd⟩ := hnd
    have hends : ∀ e' ∈ rest, e' ≠ e := by
      intro e' he' heq
      exact he (List.mem_append_left _ (List.mem_map.mpr ⟨e', he', congrArg Prod.fst heq⟩))
    have hlater : ∀ p, p ∈ lineFrom peer (.events (peer e)) (peer e) rest →
        p ≠ entry ∧ p ≠ .queue e ∧ p ≠ .wire e := by
      intro p hp
      rcases mem_lineFrom hrest hp with rfl | ⟨e', he', rfl | rfl⟩ | ⟨m, hm, rfl⟩ | rfl
      · refine ⟨?_, by simp, by simp⟩
        rcases hentry with rfl | rfl
        · simp
        · exact fun heq => he (Place.events.inj heq ▸ hrest.head)
      · refine ⟨?_, fun heq => hends e' he' (Place.queue.inj heq), by simp⟩
        rcases hentry with rfl | rfl <;> simp
      · refine ⟨?_, by simp, fun heq => hends e' he' (Place.wire.inj heq)⟩
        rcases hentry with rfl | rfl <;> simp
      · refine ⟨?_, by simp, by simp⟩
        rcases hentry with rfl | rfl
        · simp
        · exact fun heq => he (Place.events.inj heq ▸ List.mem_of_mem_tail hm)
      · refine ⟨?_, by simp, by simp⟩
        rcases hentry with rfl | rfl <;> simp
    unfold lineFrom
    refine List.nodup_cons.mpr ⟨?_, List.nodup_cons.mpr ⟨?_, List.nodup_cons.mpr ⟨?_,
      ih (.inr rfl) hrest hnd⟩⟩⟩
    · rw [List.mem_cons, List.mem_cons, not_or, not_or]
      refine ⟨?_, ?_, fun hmem => (hlater _ hmem).1 rfl⟩
      · rcases hentry with rfl | rfl <;> simp
      · rcases hentry with rfl | rfl <;> simp
    · rw [List.mem_cons, not_or]
      exact ⟨by simp, fun hmem => (hlater _ hmem).2.1 rfl⟩
    · exact fun hmem => (hlater _ hmem).2.2 rfl

/-- What comes after a place of a later hop comes after it in the whole line. -/
theorem infix_lineFrom {n : NodeId} {entry : Place} {e : SessionEnd} {rest : List SessionEnd}
    {l : List Place} (h : l <:+: lineFrom peer (.events (peer e)) (peer e) rest) :
    l <:+: lineFrom peer entry n (e :: rest) :=
  h.trans ⟨[entry, .queue e, .wire e], [], by simp [lineFrom]⟩

/-- From a queue of a manager the line goes on to the channel of the next hop, or, at the
destination, to the service. -/
theorem next_entry {n dst : NodeId} {entry : Place} (hentry : entry.IsEntry n)
    {hops : List SessionEnd} (h : Leads peer n hops dst) {p : Place} {m : NodeId}
    (hm : p.IsEntry m) (hp : p ∈ lineFrom peer entry n hops) :
    (m = dst ∧ [p, .delivered m] <:+: lineFrom peer entry n hops) ∨
      ∃ tx, (m, tx) ∈ hops ∧ [p, .queue (m, tx)] <:+: lineFrom peer entry n hops := by
  have hsame : p = entry → m = n := by
    rintro rfl
    rcases hentry with h₁ | h₁ <;> rcases hm with h₂ | h₂ <;> simp_all
  induction hops generalizing n entry with
  | nil =>
    obtain rfl : n = dst := h
    have hpe : p = entry := by
      rcases List.mem_pair.mp hp with hp | rfl
      · exact hp
      · rcases hm with h | h <;> exact absurd h (by simp)
    rw [hpe, hsame hpe]
    exact .inl ⟨rfl, List.infix_refl _⟩
  | cons e rest ih =>
    rcases List.mem_cons.mp hp with hp | hp
    · right
      refine ⟨e.2, ?_⟩
      rw [hsame hp, ← h.1, hp]
      exact ⟨List.mem_cons_self .., ⟨[], _, rfl⟩⟩
    rcases List.mem_cons.mp hp with rfl | hp
    · rcases hm with h | h <;> exact absurd h (by simp)
    rcases List.mem_cons.mp hp with rfl | hp
    · rcases hm with h | h <;> exact absurd h (by simp)
    have hsame' : p = .events (peer e) → m = peer e := by
      rintro rfl
      rcases hm with h | h
      · exact absurd h (by simp)
      · exact (Place.events.inj h).symm
    rcases ih (.inr rfl) h.2 hp hsame' with ⟨hdst, hnext⟩ | ⟨tx, hmem, hnext⟩
    · exact .inl ⟨hdst, infix_lineFrom hnext⟩
    · exact .inr ⟨tx, List.mem_cons_of_mem _ hmem, infix_lineFrom hnext⟩

/-- From a channel the line goes on to the socket. -/
theorem next_queue {n dst : NodeId} {entry : Place} (hentry : entry.IsEntry n)
    {hops : List SessionEnd} (h : Leads peer n hops dst) {e : SessionEnd}
    (hp : .queue e ∈ lineFrom peer entry n hops) :
    [.queue e, .wire e] <:+: lineFrom peer entry n hops := by
  induction hops generalizing n entry with
  | nil =>
    rcases List.mem_pair.mp hp with hp | hp
    · rcases hentry with h | h <;> simp [← hp] at h
    · exact absurd hp (by simp)
  | cons e' rest ih =>
    rcases List.mem_cons.mp hp with hp | hp
    · rcases hentry with h | h <;> simp [← hp] at h
    rcases List.mem_cons.mp hp with hp | hp
    · rw [Place.queue.inj hp]
      exact ⟨[entry], _, rfl⟩
    rcases List.mem_cons.mp hp with hp | hp
    · exact absurd hp (by simp)
    · exact infix_lineFrom (ih (.inr rfl) h.2 hp)

/-- And from the socket to the events of the node at the other end. -/
theorem next_wire {n dst : NodeId} {entry : Place} (hentry : entry.IsEntry n)
    {hops : List SessionEnd} (h : Leads peer n hops dst) {e : SessionEnd}
    (hp : .wire e ∈ lineFrom peer entry n hops) :
    [.wire e, .events (peer e)] <:+: lineFrom peer entry n hops := by
  induction hops generalizing n entry with
  | nil =>
    rcases List.mem_pair.mp hp with hp | hp
    · rcases hentry with h | h <;> simp [← hp] at h
    · exact absurd hp (by simp)
  | cons e' rest ih =>
    rcases List.mem_cons.mp hp with hp | hp
    · rcases hentry with h | h <;> simp [← hp] at h
    rcases List.mem_cons.mp hp with hp | hp
    · exact absurd hp (by simp)
    rcases List.mem_cons.mp hp with hp | hp
    · rw [Place.wire.inj hp]
      cases rest with
      | nil => exact ⟨[entry, .queue e'], [.delivered (peer e')], rfl⟩
      | cons e'' rest => exact ⟨[entry, .queue e'], _, rfl⟩
    · exact infix_lineFrom (ih (.inr rfl) h.2 hp)

/-- The places of a route. -/
def Route.line {src dst : NodeId} (route : Route peer src dst) : List Place :=
  lineFrom peer (.outbound src) src route.hops

theorem Route.nodup_line {src dst : NodeId} (route : Route peer src dst) : route.line.Nodup :=
  nodup_lineFrom (.inl rfl) route.leads route.nodup

/-- A node that forwards on a route is not the destination. -/
theorem Route.ne_dst {src dst : NodeId} (route : Route peer src dst) {e : SessionEnd}
    (he : e ∈ route.hops) : e.1 ≠ dst := by
  intro heq
  refine (List.nodup_append.mp route.nodup).2.2 e.1 (List.mem_map_of_mem he) dst
    (List.mem_singleton_self dst) heq

end Line

end MeshCore.Network
