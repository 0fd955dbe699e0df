import MeshCore.Lib.Positions
import MeshCore.Routing.Updates

/-!
# Which hop a flow takes (`mesh-routing/src/ecmp.rs`)

`select_hop` sorts the hops by node ID before it picks one by the hash of the flow, so
that the choice does not depend on the iteration order of the set. Hops to one node over
different interfaces share their node ID, and the sort leaves them in the order of the
set. The choice is that of the set and the flow exactly when the hop at the position
picked is the only one to its node (`consistent_iff`).
-/

namespace MeshCore.Routing

open MeshCore.Lib
open MeshCore.Topology (NodeId)

/-- The order in which `select_hop` sorts. -/
def byNodeId (a b : NextHop) : Bool := a.nodeId ≤ b.nodeId

theorem byNodeId_trans (a b c : NextHop) (hab : byNodeId a b = true) (hbc : byNodeId b c = true) :
    byNodeId a c = true :=
  decide_eq_true (UInt64.le_trans (of_decide_eq_true hab) (of_decide_eq_true hbc))

theorem byNodeId_total (a b : NextHop) : (byNodeId a b || byNodeId b a) = true := by
  unfold byNodeId
  rw [Bool.or_eq_true, decide_eq_true_eq, decide_eq_true_eq]
  exact UInt64.le_total ..

/-- The position a flow picks among `n` hops. -/
def EcmpSelector.position (s : EcmpSelector) (dstNode corrId : UInt64) (n : Nat) : Nat :=
  (s.hash s.hashSeed dstNode corrId).toNat % n

theorem selectHop_eq (s : EcmpSelector) (hopSet : HopSet) (dstNode corrId : UInt64) :
    s.selectHop hopSet dstNode corrId
      = (hopSet.hops.mergeSort byNodeId)[s.position dstNode corrId hopSet.hops.length]? := by
  unfold EcmpSelector.selectHop EcmpSelector.position
  cases hhops : hopSet.hops with
  | nil => simp
  | cons hop hops =>
    have hlen : ((hop :: hops).mergeSort fun a b => a.nodeId ≤ b.nodeId).length
        = (hop :: hops).length := List.length_mergeSort ..
    dsimp only
    rw [hlen]
    rfl

/-- The choice for a flow depends on the hops alone, and is one of them. -/
def Consistent (s : EcmpSelector) (hops : Finset NextHop) (dstNode corrId : UInt64) : Prop :=
  ∀ a b : HopSet, Lists a.hops hops → Lists b.hops hops →
    s.selectHop a dstNode corrId = s.selectHop b dstNode corrId ∧
      (hops.Nonempty → ∃ hop ∈ hops, s.selectHop a dstNode corrId = some hop)

/-- The position a flow picks is that of a hop with a node of its own. -/
def SingledOut (s : EcmpSelector) (hops : Finset NextHop) (dstNode corrId : UInt64) : Prop :=
  ∃ hop ∈ hops, (hops.filter fun other => other.nodeId < hop.nodeId).card
      = s.position dstNode corrId hops.card ∧
    ∀ other ∈ hops, other.nodeId = hop.nodeId → other = hop

theorem below_byNodeId (hops : Finset NextHop) (hop : NextHop) :
    below byNodeId hops hop = hops.filter fun other => other.nodeId < hop.nodeId := by
  unfold below byNodeId
  refine Finset.filter_congr fun other _ => ?_
  rw [decide_eq_false_iff_not, UInt64.not_le]

theorem alone_byNodeId (hops : Finset NextHop) (hop : NextHop) :
    Alone byNodeId hops hop ↔ ∀ other ∈ hops, other.nodeId = hop.nodeId → other = hop := by
  unfold Alone byNodeId
  refine forall₂_congr fun other _ => ?_
  rw [decide_eq_true_eq, decide_eq_true_eq]
  constructor
  · intro h heq
    exact h (UInt64.le_of_eq heq.symm) (UInt64.le_of_eq heq)
  · intro h hle hge
    exact h (UInt64.le_antisymm hge hle)

theorem selectHop_listed {s : EcmpSelector} {hops : Finset NextHop} {a : HopSet}
    (ha : Lists a.hops hops) (dstNode corrId : UInt64) :
    s.selectHop a dstNode corrId
      = (a.hops.mergeSort byNodeId)[s.position dstNode corrId hops.card]? := by
  rw [selectHop_eq, ha.length]

theorem position_lt (s : EcmpSelector) {hops : Finset NextHop} (hne : hops.Nonempty)
    (dstNode corrId : UInt64) : s.position dstNode corrId hops.card < hops.card :=
  Nat.mod_lt _ hne.card_pos

/-- The choice is one of the hops. -/
theorem exists_selectHop {s : EcmpSelector} {hops : Finset NextHop} {a : HopSet}
    (ha : Lists a.hops hops) (hne : hops.Nonempty) (dstNode corrId : UInt64) :
    ∃ hop ∈ hops, s.selectHop a dstNode corrId = some hop := by
  have hsorted := ha.perm (List.mergeSort_perm a.hops byNodeId)
  obtain ⟨hop, hget⟩ : ∃ hop,
      (a.hops.mergeSort byNodeId)[s.position dstNode corrId hops.card]? = some hop :=
    ⟨_, List.getElem?_eq_getElem (by rw [hsorted.length]; exact position_lt s hne dstNode corrId)⟩
  exact ⟨hop, hsorted.mem.mp (List.mem_of_getElem? hget),
    (selectHop_listed ha dstNode corrId).trans hget⟩

theorem consistent_empty (s : EcmpSelector) (dstNode corrId : UInt64) :
    Consistent s ∅ dstNode corrId := by
  intro a b ha hb
  have hnil : ∀ {l : List NextHop}, Lists l ∅ → l = [] :=
    fun hl => (List.toFinset_eq_empty_iff _).mp hl.toFinset
  refine ⟨?_, fun h => absurd h (by simp)⟩
  rw [selectHop_eq, selectHop_eq, hnil ha, hnil hb]

/-- **When the choice of a flow is that of the set.** -/
theorem consistent_iff (s : EcmpSelector) (hops : Finset NextHop) (dstNode corrId : UInt64) :
    Consistent s hops dstNode corrId ↔ hops = ∅ ∨ SingledOut s hops dstNode corrId := by
  rcases hops.eq_empty_or_nonempty with rfl | hne
  · exact iff_of_true (consistent_empty s dstNode corrId) (Or.inl rfl)
  · have hdetermined := position_determined_iff byNodeId_trans byNodeId_total
      (position_lt s hne dstNode corrId)
    simp only [below_byNodeId, alone_byNodeId] at hdetermined
    rw [or_iff_right hne.ne_empty, SingledOut, ← hdetermined]
    constructor
    · intro h l l' hl hl'
      have hsame := (h ⟨l, 0⟩ ⟨l', 0⟩ hl hl').1
      rwa [selectHop_listed (a := ⟨l, 0⟩) hl, selectHop_listed (a := ⟨l', 0⟩) hl'] at hsame
    · intro h a b ha hb
      refine ⟨?_, fun _ => exists_selectHop ha hne dstNode corrId⟩
      rw [selectHop_listed ha, selectHop_listed hb]
      exact h a.hops b.hops ha hb

/-- Two hops to node 7, over two interfaces: the choice is the one added first. -/
theorem choice_depends_on_order :
    ¬ ∀ (s : EcmpSelector) (hops : Finset NextHop) (dstNode corrId : UInt64),
      Consistent s hops dstNode corrId := by
  intro h
  let eth0 : NextHop := { nodeId := 7, cost := 10, interface := some "eth0" }
  let eth1 : NextHop := { nodeId := 7, cost := 10, interface := some "eth1" }
  let first : HopSet := ((((HopSet.new 10).addHop eth0).2).addHop eth1).2
  let second : HopSet := ((((HopSet.new 10).addHop eth1).2).addHop eth0).2
  let s : EcmpSelector := { hashSeed := 0, hash := fun _ _ _ => 0 }
  have hsame := (h s {eth0, eth1} 5 1 first second ⟨by decide, by decide⟩
    ⟨by decide, by decide⟩).1
  -- both are sorted as they are
  rw [selectHop_eq, selectHop_eq, List.mergeSort_of_pairwise (by decide),
    List.mergeSort_of_pairwise (by decide)] at hsame
  exact absurd hsame (by decide)

end MeshCore.Routing
