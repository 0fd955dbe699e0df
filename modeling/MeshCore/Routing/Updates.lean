import MeshCore.Lib.Runs
import MeshCore.Routing.Table
import Mathlib.Data.List.Induction

/-!
# Changing the routing table (`mesh-routing/src/table.rs`)

`update_routes` reads the epoch once, before the loop that raises it. An update is
compared with the epoch of the call, not with that of the update before it, so within one
call an older update is applied after a newer one, and takes the epoch back with it. The
epochs of a batch decide whether that can happen (`epoch_law_iff`).

`is_reachable` asks for a route, and `decide` for a hop of it. They agree as long as no
operation leaves a route without hops (`reachable_iff_along`).
-/

namespace MeshCore.Routing

open MeshCore.Lib
open MeshCore.Topology (NodeId ComputedRoute)

namespace HopSet

/-- `HopSet::new`. -/
def new (cost : UInt32) : HopSet := { hops := [], cost }

/-- `HopSet::add_hop`: whether the cost matches. -/
def addHop (s : HopSet) (hop : NextHop) : Bool × HopSet :=
  if hop.cost = s.cost then
    (true, { s with hops := if hop ∈ s.hops then s.hops else s.hops ++ [hop] })
  else (false, s)

/-- `HopSet::remove_hop`: whether there are hops left. -/
def removeHop (s : HopSet) (nodeId : NodeId) : Bool × HopSet :=
  let hops := s.hops.filter fun hop => hop.nodeId ≠ nodeId
  (!hops.isEmpty, { s with hops })

end HopSet

/-- `RouteUpdate`. -/
structure RouteUpdate where
  destination : NodeId
  hopSet : Option HopSet
  epoch : UInt32
  deriving Repr, DecidableEq

namespace RoutingTable

/-- `add_route`. -/
def addRoute (t : RoutingTable) (dstNode : NodeId) (hopSet : HopSet) : RoutingTable :=
  { t with routes := t.routes.insert dstNode hopSet }

/-- `remove_route`. -/
def removeRoute (t : RoutingTable) (dstNode : NodeId) : RoutingTable :=
  { t with routes := t.routes.erase dstNode }

/-- `clear_routes`. -/
def clearRoutes (t : RoutingTable) : RoutingTable := { t with routes := ∅ }

/-- `set_epoch`. -/
def setEpoch (t : RoutingTable) (epoch : UInt32) : RoutingTable := { t with currentEpoch := epoch }

/-- The body of the loop of `update_routes`; `currentEpoch` is what it read before. -/
def applyUpdate (currentEpoch : UInt32) (t : RoutingTable) (update : RouteUpdate) : RoutingTable :=
  if update.epoch ≥ currentEpoch then
    let t := if update.epoch > currentEpoch then t.setEpoch update.epoch else t
    match update.hopSet with
    | some hopSet => t.addRoute update.destination hopSet
    | none => t.removeRoute update.destination
  else t

/-- `update_routes`. -/
def updateRoutes (t : RoutingTable) (updates : List RouteUpdate) : RoutingTable :=
  updates.foldl (applyUpdate t.currentEpoch) t

/-- `is_reachable`. -/
def isReachable (t : RoutingTable) (dstNode : NodeId) : Bool :=
  if dstNode = t.localNodeId then true else (t.routes.lookup dstNode).isSome

/-! ## What an update does -/

variable {e : UInt32} {t : RoutingTable} {u : RouteUpdate} {us vs : List RouteUpdate}

theorem applyUpdate_of_lt (h : u.epoch < e) : applyUpdate e t u = t :=
  if_neg (UInt32.not_le.mpr h)

theorem applyUpdate_localNodeId : (applyUpdate e t u).localNodeId = t.localNodeId := by
  unfold applyUpdate setEpoch
  cases u.hopSet <;> dsimp only <;> split_ifs <;> rfl

/-- An update that is applied sets its route, and leaves the others. -/
theorem lookup_applyUpdate (d : NodeId) :
    (applyUpdate e t u).routes.lookup d
      = if e ≤ u.epoch ∧ u.destination = d then u.hopSet else t.routes.lookup d := by
  unfold applyUpdate setEpoch
  by_cases he : e ≤ u.epoch
  · rw [if_pos he]
    have hroutes : (if u.epoch > e then { t with currentEpoch := u.epoch } else t).routes
        = t.routes := by
      split <;> rfl
    cases hset : u.hopSet with
    | some hopSet =>
      dsimp only
      rw [addRoute, hroutes, HashMap.lookup_insert_ite]
      simp only [he, true_and, eq_comm]
    | none =>
      dsimp only
      rw [removeRoute, hroutes]
      by_cases hd : u.destination = d
      · rw [hd, AList.lookup_erase, if_pos ⟨he, rfl⟩]
      · rw [AList.lookup_erase_ne (Ne.symm hd), if_neg fun h => hd h.2]
  · rw [if_neg he, if_neg fun h => he h.1]

/-! ## Epochs -/

/-- The same epoch, and the same route to every destination. -/
structure SameRouting (t t' : RoutingTable) : Prop where
  epoch : t.currentEpoch = t'.currentEpoch
  lookup : ∀ d, t.routes.lookup d = t'.routes.lookup d

/-- Epochs only move forward over a batch: it leaves the newest epoch, does the same in
one call as in two, and ignores an update that is older than one applied before it. -/
structure EpochLaw (t : RoutingTable) (updates : List RouteUpdate) : Prop where
  newest : (t.updateRoutes updates).currentEpoch
    = (updates.map RouteUpdate.epoch).foldl max t.currentEpoch
  split : ∀ us vs, updates = us ++ vs →
    SameRouting (t.updateRoutes updates) ((t.updateRoutes us).updateRoutes vs)
  stale : ∀ us u vs, updates = us ++ u :: vs →
    (∃ w ∈ us, t.currentEpoch ≤ w.epoch ∧ u.epoch < w.epoch) →
    SameRouting (t.updateRoutes updates) (t.updateRoutes (us ++ vs))

/-- The epochs that are not older than that of the call do not fall. -/
def Forward (e : UInt32) (epochs : List UInt32) : Prop :=
  (epochs.filter fun x => e ≤ x).Pairwise (· ≤ ·)

theorem max_of_le {a b : UInt32} (h : a ≤ b) : max a b = b := if_pos h

theorem max_of_ge {a b : UInt32} (h : b ≤ a) : max a b = a := by
  show (if a ≤ b then b else a) = a
  split
  next hle => exact UInt32.le_antisymm h hle
  next => rfl

theorem foldl_max_le_iff {epochs : List UInt32} {c : UInt32} :
    epochs.foldl max e ≤ c ↔ e ≤ c ∧ ∀ x ∈ epochs, x ≤ c := by
  induction epochs generalizing e with
  | nil => simp
  | cons x epochs ih =>
    rw [List.foldl_cons, ih, List.forall_mem_cons, ← and_assoc]
    refine and_congr_left fun _ => ?_
    by_cases hx : e ≤ x
    · rw [max_of_le hx]
      exact ⟨fun h => ⟨UInt32.le_trans hx h, h⟩, And.right⟩
    · have hge : x ≤ e := UInt32.le_of_lt (UInt32.not_le.mp hx)
      rw [max_of_ge hge]
      exact ⟨fun h => ⟨h, UInt32.le_trans hge h⟩, And.left⟩

theorem forward_cons {x : UInt32} {epochs : List UInt32} :
    Forward e (x :: epochs)
      ↔ (e ≤ x → ∀ y ∈ epochs, e ≤ y → x ≤ y) ∧ Forward e epochs := by
  unfold Forward
  by_cases hx : e ≤ x
  · rw [List.filter_cons_of_pos (by simpa using hx), List.pairwise_cons]
    simp [hx]
  · rw [List.filter_cons_of_neg (by simpa using hx)]
    simp [hx]

theorem forward_append {us vs : List UInt32} :
    Forward e (us ++ vs) ↔ Forward e us ∧ Forward e vs ∧
      ∀ x ∈ us, e ≤ x → ∀ y ∈ vs, e ≤ y → x ≤ y := by
  unfold Forward
  rw [List.filter_append, List.pairwise_append]
  simp only [List.mem_filter, decide_eq_true_eq, and_imp]

/-- An update that is not older than the present epoch sets it. -/
theorem applyUpdate_of_newer (he : e ≤ t.currentEpoch) (hu : t.currentEpoch ≤ u.epoch) :
    applyUpdate e t u = match u.hopSet with
      | some hopSet => (t.setEpoch u.epoch).addRoute u.destination hopSet
      | none => (t.setEpoch u.epoch).removeRoute u.destination := by
  have hset : (if u.epoch > e then t.setEpoch u.epoch else t) = t.setEpoch u.epoch := by
    split
    next => rfl
    next hnot =>
      -- all three epochs are the same
      have hback : u.epoch ≤ t.currentEpoch := UInt32.le_trans (UInt32.not_lt.mp hnot) he
      rw [UInt32.le_antisymm hback hu]
      rfl
  unfold applyUpdate
  rw [if_pos (UInt32.le_trans he hu), hset]

/-- When the epochs do not fall, it does not matter which epoch between that of the call
and the present one an update is compared with. -/
theorem foldl_applyUpdate_eq {e e' : UInt32} (hforward : Forward e (us.map RouteUpdate.epoch))
    (hle : e ≤ e') (hcur : e' ≤ t.currentEpoch)
    (hnewer : ∀ u ∈ us, e ≤ u.epoch → t.currentEpoch ≤ u.epoch) :
    us.foldl (applyUpdate e) t = us.foldl (applyUpdate e') t ∧
      (us.foldl (applyUpdate e) t).currentEpoch
        = (us.map RouteUpdate.epoch).foldl max t.currentEpoch := by
  induction us generalizing t with
  | nil => exact ⟨rfl, rfl⟩
  | cons u us ih =>
    obtain ⟨hhead, htail⟩ := forward_cons.mp hforward
    rw [List.foldl_cons, List.foldl_cons, List.map_cons, List.foldl_cons]
    by_cases he : e ≤ u.epoch
    · -- applied in both, and its epoch is the present one afterwards
      have hu : t.currentEpoch ≤ u.epoch := hnewer u (List.mem_cons_self ..) he
      have hsame : applyUpdate e t u = applyUpdate e' t u := by
        rw [applyUpdate_of_newer (UInt32.le_trans hle hcur) hu, applyUpdate_of_newer hcur hu]
      have hepoch : (applyUpdate e t u).currentEpoch = u.epoch := by
        rw [applyUpdate_of_newer (UInt32.le_trans hle hcur) hu]
        cases u.hopSet <;> rfl
      rw [← hsame, max_of_le hu, ← hepoch]
      refine ih htail (hepoch ▸ UInt32.le_trans hcur hu) ?_
      intro v hv hev
      rw [hepoch]
      exact hhead he v.epoch (List.mem_map_of_mem hv) hev
    · have hlt : u.epoch < e := UInt32.not_le.mp he
      have hold : u.epoch ≤ t.currentEpoch :=
        UInt32.le_trans (UInt32.le_of_lt hlt) (UInt32.le_trans hle hcur)
      rw [applyUpdate_of_lt hlt, applyUpdate_of_lt (UInt32.lt_of_lt_of_le hlt hle), max_of_ge hold]
      exact ih htail hcur fun v hv => hnewer v (List.mem_cons_of_mem u hv)

theorem updateRoutes_newest (h : Forward t.currentEpoch (us.map RouteUpdate.epoch)) :
    (t.updateRoutes us).currentEpoch = (us.map RouteUpdate.epoch).foldl max t.currentEpoch :=
  (foldl_applyUpdate_eq h (UInt32.le_refl _) (UInt32.le_refl _) fun _ _ hu => hu).2

/-- One call or two. -/
theorem updateRoutes_append (h : Forward t.currentEpoch ((us ++ vs).map RouteUpdate.epoch)) :
    t.updateRoutes (us ++ vs) = (t.updateRoutes us).updateRoutes vs := by
  rw [List.map_append, forward_append] at h
  obtain ⟨hus, hvs, hcross⟩ := h
  have hnewest := updateRoutes_newest hus
  have hold : t.currentEpoch ≤ (t.updateRoutes us).currentEpoch := by
    rw [hnewest]
    exact (foldl_max_le_iff.mp (UInt32.le_refl _)).1
  show (us ++ vs).foldl (applyUpdate t.currentEpoch) t = _
  rw [List.foldl_append]
  refine (foldl_applyUpdate_eq hvs hold (UInt32.le_refl _) ?_).1
  intro v hv hcurrent
  show (t.updateRoutes us).currentEpoch ≤ v.epoch
  rw [hnewest, foldl_max_le_iff]
  refine ⟨hcurrent, fun x hx => ?_⟩
  by_cases hx' : t.currentEpoch ≤ x
  · exact hcross x hx hx' v.epoch (List.mem_map_of_mem hv) hcurrent
  · exact UInt32.le_trans (UInt32.le_of_lt (UInt32.not_le.mp hx')) hcurrent

/-- An update older than one applied before it is older than the epoch of the call. -/
theorem updateRoutes_stale (h : Forward t.currentEpoch ((us ++ u :: vs).map RouteUpdate.epoch))
    (hstale : ∃ w ∈ us, t.currentEpoch ≤ w.epoch ∧ u.epoch < w.epoch) :
    t.updateRoutes (us ++ u :: vs) = t.updateRoutes (us ++ vs) := by
  rw [List.map_append, forward_append] at h
  obtain ⟨w, hw, hwcur, hlt⟩ := hstale
  have hold : u.epoch < t.currentEpoch := by
    refine UInt32.not_le.mp fun hcurrent => ?_
    have hle := h.2.2 w.epoch (List.mem_map_of_mem hw) hwcur u.epoch (by simp) hcurrent
    exact UInt32.not_le.mpr hlt hle
  show (us ++ u :: vs).foldl _ t = (us ++ vs).foldl _ t
  rw [List.foldl_append, List.foldl_append, List.foldl_cons, applyUpdate_of_lt hold]

theorem epochLaw_of_forward (h : Forward t.currentEpoch (us.map RouteUpdate.epoch)) :
    EpochLaw t us where
  newest := updateRoutes_newest h
  split := by
    intro us' vs hsplit
    subst hsplit
    rw [updateRoutes_append h]
    exact ⟨rfl, fun _ => rfl⟩
  stale := by
    intro us' u vs hsplit hstale
    subst hsplit
    rw [updateRoutes_stale h hstale]
    exact ⟨rfl, fun _ => rfl⟩

/-! ### A batch whose epochs fall -/

/-- Epochs that fall, fall first at some place. -/
theorem exists_first_fall {epochs : List UInt32} (h : ¬ Forward e epochs) :
    ∃ pre x post, epochs = pre ++ x :: post ∧ Forward e pre ∧ e ≤ x ∧ ∃ y ∈ pre, x < y := by
  induction epochs using List.reverseRecOn with
  | nil => exact absurd List.Pairwise.nil h
  | append_singleton epochs x ih =>
    by_cases hpre : Forward e epochs
    · rw [forward_append] at h
      have hx : Forward e [x] := (List.pairwise_singleton ..).sublist List.filter_sublist
      have hfall : ∃ y ∈ epochs, e ≤ x ∧ x < y := by
        by_contra hnone
        refine h ⟨hpre, hx, fun y hy _ z hz hez => ?_⟩
        rw [List.mem_singleton.mp hz] at hez ⊢
        exact UInt32.not_lt.mp fun hlt => hnone ⟨y, hy, hez, hlt⟩
      obtain ⟨y, hy, hex, hlt⟩ := hfall
      exact ⟨epochs, x, [], rfl, hpre, hex, y, hy, hlt⟩
    · obtain ⟨pre, y, post, rfl, hforward, hey, hfall⟩ := ih hpre
      exact ⟨pre, y, post ++ [x], by simp, hforward, hey, hfall⟩

/-- Updates for other destinations leave a route. -/
theorem lookup_foldl_applyUpdate_other {d : NodeId} (h : ∀ u ∈ us, u.destination ≠ d) :
    (us.foldl (applyUpdate e) t).routes.lookup d = t.routes.lookup d := by
  induction us generalizing t with
  | nil => rfl
  | cons u us ih =>
    rw [List.foldl_cons, ih fun v hv => h v (List.mem_cons_of_mem u hv), lookup_applyUpdate,
      if_neg fun hd => h u (List.mem_cons_self ..) hd.2]

/-- In one call an update is compared with the epoch of the call. -/
theorem lookup_in_one_call (us : List RouteUpdate) (hcurrent : t.currentEpoch ≤ u.epoch)
    (hvs : ∀ v ∈ vs, v.destination ≠ u.destination) :
    (t.updateRoutes (us ++ u :: vs)).routes.lookup u.destination = u.hopSet := by
  unfold updateRoutes
  rw [List.foldl_append, List.foldl_cons, lookup_foldl_applyUpdate_other hvs, lookup_applyUpdate]
  exact if_pos ⟨hcurrent, rfl⟩

/-- In two it is compared with that of the first. -/
theorem lookup_in_two_calls (hold : u.epoch < (t.updateRoutes us).currentEpoch)
    (hus : ∀ v ∈ us, v.destination ≠ u.destination)
    (hvs : ∀ v ∈ vs, v.destination ≠ u.destination) :
    ((t.updateRoutes us).updateRoutes (u :: vs)).routes.lookup u.destination
      = t.routes.lookup u.destination := by
  unfold updateRoutes at hold ⊢
  rw [List.foldl_cons, applyUpdate_of_lt hold, lookup_foldl_applyUpdate_other hvs,
    lookup_foldl_applyUpdate_other hus]

/-- A withdrawal of the route to node 1. -/
def withdrawal (epoch : UInt32) : RouteUpdate := { destination := 1, hopSet := none, epoch }

theorem epochs_of_withdrawals (epochs : List UInt32) :
    (epochs.map withdrawal).map RouteUpdate.epoch = epochs := by
  rw [List.map_map]
  exact List.map_id' epochs

theorem destination_of_withdrawals (epochs : List UInt32) :
    ∀ u ∈ epochs.map withdrawal, u.destination ≠ (0 : NodeId) := by
  intro u hu
  obtain ⟨epoch, -, rfl⟩ := List.mem_map.mp hu
  exact (by decide : (1 : NodeId) ≠ 0)

/-- There is a hop set that is not the route to a node. -/
theorem exists_new_hopSet (t : RoutingTable) (d : NodeId) :
    ∃ hopSet, t.routes.lookup d ≠ some hopSet := by
  by_cases hzero : t.routes.lookup d = some (HopSet.new 0)
  · refine ⟨HopSet.new 1, fun hone => ?_⟩
    exact absurd (hzero.symm.trans hone) (by decide)
  · exact ⟨_, hzero⟩

/-- **Epochs that fall break the law**: a route that comes with the epoch at which they
first fall is set in one call, and ignored in two. -/
theorem not_epochLaw_of_fall {epochs : List UInt32} (h : ¬ Forward t.currentEpoch epochs) :
    ∃ updates : List RouteUpdate,
      updates.map RouteUpdate.epoch = epochs ∧ ¬ EpochLaw t updates := by
  obtain ⟨pre, x, post, rfl, hforward, hx, y, hy, hlt⟩ := exists_first_fall h
  obtain ⟨hopSet, hnew⟩ := t.exists_new_hopSet 0
  let update : RouteUpdate := { destination := 0, hopSet := some hopSet, epoch := x }
  have hpost := destination_of_withdrawals post
  have hnewest : (t.updateRoutes (pre.map withdrawal)).currentEpoch
      = pre.foldl max t.currentEpoch := by
    rw [updateRoutes_newest (by rwa [epochs_of_withdrawals]), epochs_of_withdrawals]
  have hold : update.epoch < (t.updateRoutes (pre.map withdrawal)).currentEpoch := by
    rw [hnewest]
    exact UInt32.lt_of_lt_of_le hlt ((foldl_max_le_iff.mp (UInt32.le_refl _)).2 y hy)
  refine ⟨pre.map withdrawal ++ update :: post.map withdrawal, ?_, fun hlaw => hnew ?_⟩
  · rw [List.map_append, List.map_cons, epochs_of_withdrawals, epochs_of_withdrawals]
  · have hone := lookup_in_one_call (pre.map withdrawal)
      (show t.currentEpoch ≤ update.epoch from hx) hpost
    have htwo := lookup_in_two_calls hold (destination_of_withdrawals pre) hpost
    exact (htwo.symm.trans ((hlaw.split _ _ rfl).lookup 0).symm).trans hone

/-- **When epochs only move forward.** For every table and all epochs that a batch of
updates may have: the law holds of all batches with these epochs if and only if those that
are not older than the table's do not fall. -/
theorem epoch_law_iff (t : RoutingTable) (epochs : List UInt32) :
    (∀ updates : List RouteUpdate, updates.map RouteUpdate.epoch = epochs → EpochLaw t updates)
      ↔ Forward t.currentEpoch epochs := by
  constructor
  · intro h
    by_contra hnot
    obtain ⟨updates, hepochs, hbreaks⟩ := not_epochLaw_of_fall hnot
    exact hbreaks (h updates hepochs)
  · intro h updates hepochs
    exact epochLaw_of_forward (hepochs ▸ h)

/-- Epochs 5 and 3 in one call: the table is left at 3. -/
theorem epoch_moves_back :
    ¬ ∀ (t : RoutingTable) (updates : List RouteUpdate), EpochLaw t updates := by
  intro h
  have hnewest := (h (.new 9 fun _ _ _ => 0) [withdrawal 5, withdrawal 3]).newest
  exact absurd hnewest (by decide)

/-! ## Reachability -/

/-- `is_reachable` and `decide` agree on every context that is not expired. -/
def Agrees (t : RoutingTable) : Prop :=
  ∀ ctx : RoutingContext, ctx.ttl ≠ 0 →
    (t.isReachable ctx.dstNode = true ↔ t.decide ctx ≠ .drop .noRoute)

/-- Every route to another node has a hop. -/
def NoEmptyRoute (t : RoutingTable) : Prop :=
  ∀ d hopSet, d ≠ t.localNodeId → t.routes.lookup d = some hopSet → hopSet.hops ≠ []

theorem decide_ne_noRoute_iff {ctx : RoutingContext} (httl : ctx.ttl ≠ 0) :
    t.decide ctx ≠ .drop .noRoute ↔ ctx.dstNode = t.localNodeId ∨
      ∃ hopSet, t.routes.lookup ctx.dstNode = some hopSet ∧ hopSet.hops ≠ [] := by
  by_cases hlocal : ctx.dstNode = t.localNodeId
  · have hdecide : t.decide ctx = .local := if_pos hlocal
    simp [hdecide, hlocal]
  · rw [ne_eq, decide_noRoute_iff hlocal httl]
    simp [hlocal]

theorem isReachable_iff {d : NodeId} :
    t.isReachable d = true ↔ d = t.localNodeId ∨ ∃ hopSet, t.routes.lookup d = some hopSet := by
  unfold isReachable
  by_cases hlocal : d = t.localNodeId
  · simp [hlocal]
  · simp [hlocal, Option.isSome_iff_exists]

/-- **A route without hops is the only difference.** -/
theorem agrees_iff : t.Agrees ↔ t.NoEmptyRoute := by
  constructor
  · intro h d hopSet hlocal hroute
    let ctx : RoutingContext := { srcNode := 0, dstNode := d, ttl := 1, corrId := 0 }
    have httl : ctx.ttl ≠ 0 := (by decide : (1 : UInt8) ≠ 0)
    have hdecide := (h ctx httl).mp (isReachable_iff.mpr (Or.inr ⟨hopSet, hroute⟩))
    rcases (decide_ne_noRoute_iff httl).mp hdecide with heq | ⟨hopSet', hroute', hne⟩
    · exact absurd heq hlocal
    · obtain rfl := Option.some.inj (hroute.symm.trans hroute')
      exact hne
  · intro h ctx httl
    rw [isReachable_iff, decide_ne_noRoute_iff httl]
    constructor
    · intro hreach
      rcases hreach with heq | ⟨hopSet, hroute⟩
      · exact Or.inl heq
      · by_cases hlocal : ctx.dstNode = t.localNodeId
        · exact Or.inl hlocal
        · exact Or.inr ⟨hopSet, hroute, h _ hopSet hlocal hroute⟩
    · intro hdecide
      rcases hdecide with heq | ⟨hopSet, hroute, -⟩
      · exact Or.inl heq
      · exact Or.inr ⟨hopSet, hroute⟩

/-! ### Runs -/

/-- An operation that changes the table. -/
inductive TableOp where
  | addRoute (dstNode : NodeId) (hopSet : HopSet)
  | removeRoute (dstNode : NodeId)
  | clearRoutes
  | updateRoutes (updates : List RouteUpdate)
  | updateRoutesFromTopology (computed : HashMap NodeId ComputedRoute)

/-- The table after it. -/
def apply (t : RoutingTable) : TableOp → RoutingTable
  | .addRoute dstNode hopSet => t.addRoute dstNode hopSet
  | .removeRoute dstNode => t.removeRoute dstNode
  | .clearRoutes => t.clearRoutes
  | .updateRoutes updates => t.updateRoutes updates
  | .updateRoutesFromTopology computed => t.updateRoutesFromTopology computed

/-- The last update of a batch for a destination that is applied. -/
def lastApplied (t : RoutingTable) (updates : List RouteUpdate) (d : NodeId) :
    Option RouteUpdate :=
  updates.reverse.find? fun u => t.currentEpoch ≤ u.epoch ∧ u.destination = d

/-- The operation leaves no route without hops: `add_route` adds none, and of a batch none
is the last update applied for its destination. -/
def AddsHops (t : RoutingTable) : TableOp → Prop
  | .addRoute dstNode hopSet => dstNode ≠ t.localNodeId → hopSet.hops ≠ []
  | .updateRoutes updates => ∀ d u hopSet, d ≠ t.localNodeId →
      t.lastApplied updates d = some u → u.hopSet = some hopSet → hopSet.hops ≠ []
  | _ => True

theorem lookup_updateRoutes (t : RoutingTable) (updates : List RouteUpdate) (d : NodeId) :
    (t.updateRoutes updates).routes.lookup d
      = match t.lastApplied updates d with
        | some u => u.hopSet
        | none => t.routes.lookup d := by
  unfold updateRoutes lastApplied
  induction updates using List.reverseRecOn with
  | nil => rfl
  | append_singleton updates u ih =>
    rw [List.foldl_append, List.foldl_cons, List.foldl_nil, lookup_applyUpdate, ih,
      List.reverse_append, List.reverse_singleton, List.singleton_append, List.find?_cons]
    by_cases h : t.currentEpoch ≤ u.epoch ∧ u.destination = d
    · simp [h]
    · simp [h]

theorem updateRoutes_localNodeId (t : RoutingTable) (updates : List RouteUpdate) :
    (t.updateRoutes updates).localNodeId = t.localNodeId :=
  List.foldlRecOn (motive := fun t' => t'.localNodeId = t.localNodeId) updates
    (applyUpdate t.currentEpoch) rfl fun _ h _ _ => applyUpdate_localNodeId.trans h

/-- Computed routes have one hop each. -/
theorem noEmptyRoute_updateRoutesFromTopology (t : RoutingTable)
    (computed : HashMap NodeId ComputedRoute) :
    (t.updateRoutesFromTopology computed).NoEmptyRoute := by
  have hretain : t.retainLocal.NoEmptyRoute := by
    intro d hopSet (hlocal : d ≠ t.localNodeId) hroute
    unfold retainLocal at hroute
    rw [HashMap.lookup_retain, if_neg (by simpa using hlocal)] at hroute
    exact absurd hroute (by simp)
  refine List.foldlRecOn (motive := NoEmptyRoute) computed.entries
    (fun t e => t.insertRoute e.1 e.2) hretain fun t' ht e _ d hopSet hlocal hroute => ?_
  unfold insertRoute at hroute
  rw [HashMap.lookup_insert_ite] at hroute
  split at hroute
  next =>
    rw [← Option.some.inj hroute]
    exact List.cons_ne_nil _ _
  next => exact ht d hopSet hlocal hroute

theorem noEmptyRoute_addRoute_iff (h : t.NoEmptyRoute) (dstNode : NodeId) (hopSet : HopSet) :
    (t.addRoute dstNode hopSet).NoEmptyRoute
      ↔ (dstNode ≠ t.localNodeId → hopSet.hops ≠ []) := by
  constructor
  · intro hkept hlocal
    refine hkept dstNode hopSet hlocal ?_
    exact (HashMap.lookup_insert_ite ..).trans (if_pos rfl)
  · intro hadds d hopSet' hlocal hroute
    have hlookup := (HashMap.lookup_insert_ite ..).symm.trans hroute
    split at hlookup
    next hd =>
      obtain rfl := Option.some.inj hlookup
      exact hadds (hd ▸ hlocal)
    next => exact h d hopSet' hlocal hlookup

theorem noEmptyRoute_removeRoute (h : t.NoEmptyRoute) (dstNode : NodeId) :
    (t.removeRoute dstNode).NoEmptyRoute := by
  intro d hopSet hlocal hroute
  by_cases hd : d = dstNode
  · have hnone : (t.routes.erase dstNode).lookup d = none := by
      rw [hd, AList.lookup_erase]
    exact absurd (hnone.symm.trans hroute) (by simp)
  · exact h d hopSet hlocal ((AList.lookup_erase_ne hd).symm.trans hroute)

theorem noEmptyRoute_updateRoutes_iff (h : t.NoEmptyRoute) (updates : List RouteUpdate) :
    (t.updateRoutes updates).NoEmptyRoute
      ↔ ∀ d u hopSet, d ≠ t.localNodeId → t.lastApplied updates d = some u →
        u.hopSet = some hopSet → hopSet.hops ≠ [] := by
  unfold NoEmptyRoute
  rw [updateRoutes_localNodeId]
  simp only [lookup_updateRoutes]
  constructor
  · intro hkept d u hopSet hlocal hlast hset
    refine hkept d hopSet hlocal ?_
    rw [hlast]
    exact hset
  · intro hadds d hopSet hlocal hroute
    cases hlast : t.lastApplied updates d with
    | none =>
      rw [hlast] at hroute
      exact h d hopSet hlocal hroute
    | some u =>
      rw [hlast] at hroute
      exact hadds d u hopSet hlocal hlast hroute

/-- **One operation** keeps the two in agreement exactly when it leaves no route without
hops. -/
theorem agrees_apply_iff (h : t.Agrees) (op : TableOp) : (t.apply op).Agrees ↔ t.AddsHops op := by
  rw [agrees_iff] at h ⊢
  cases op with
  | addRoute dstNode hopSet => exact noEmptyRoute_addRoute_iff h dstNode hopSet
  | removeRoute dstNode => exact iff_of_true (noEmptyRoute_removeRoute h dstNode) trivial
  | clearRoutes =>
    exact iff_of_true (fun _ _ _ hroute => absurd hroute (by simp [apply, clearRoutes])) trivial
  | updateRoutes updates => exact noEmptyRoute_updateRoutes_iff h updates
  | updateRoutesFromTopology computed =>
    exact iff_of_true (noEmptyRoute_updateRoutesFromTopology t computed) trivial

/-- **When reachability and routing agree.** In every run from a new table, `is_reachable`
and `decide` agree in every state if and only if no operation leaves a route without
hops. -/
theorem reachable_iff_along (localNodeId : NodeId) (hash : UInt64 → UInt64 → UInt64 → UInt64)
    (ops : List TableOp) :
    (∀ done, done <+: ops → (done.foldl apply (.new localNodeId hash)).Agrees)
      ↔ Along apply AddsHops (.new localNodeId hash) ops := by
  refine every_state_iff_along (I := Agrees) (fun _ op h => agrees_apply_iff h op)
    (agrees_iff.mpr ?_)
  intro d hopSet _ hroute
  exact absurd hroute (by simp [RoutingTable.new])

/-- The last hop is removed before the set is added. -/
theorem emptied_set_reachable :
    ¬ ∀ (localNodeId : NodeId) (hash : UInt64 → UInt64 → UInt64 → UInt64) (ops : List TableOp),
      (ops.foldl apply (.new localNodeId hash)).Agrees := by
  intro h
  let hopSet := ((HopSet.new 10).addHop (.new 7 10)).2
  have hagrees := h 1 (fun _ _ _ => 0) [.addRoute 5 (hopSet.removeHop 7).2]
    { srcNode := 1, dstNode := 5, ttl := 3, corrId := 0 } (by decide)
  exact absurd (hagrees.mp (by decide)) (by decide)

end RoutingTable

end MeshCore.Routing
