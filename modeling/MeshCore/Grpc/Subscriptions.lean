import MeshCore.Grpc.Delivery

/-!
# Subscriptions over time

A run of `subscribe`, `unsubscribe`, `deliver` and of receivers that go away, with what the
channels hold and which IDs were given out. One `deliver` puts a copy on the channel of every
registered subscriber that the message matches and that is still there, counts these, and
removes those that it matches and that are gone (`step_deliver`).

Over a whole run a receiver that stays holds the matching messages delivered from its
`subscribe` to its `unsubscribe`, in order (`receiver_holds`), provided that its ID is not
given out a second time. IDs count up in a `u64`: they are distinct as long as there are at
most 2^64 subscriptions (`issued_nodup`), and the next one has the ID of the first
(`id_reused`).

Mirroring notes:
- `received` is what was put on the channel of a subscription; taking it off at the other
  end is not modelled. A new subscription has a new channel.
-/

namespace MeshCore.Grpc

open MeshCore.Lib

/-- An operation on a `DeliveryQueue`, or a receiver that goes away. -/
inductive SubscriptionOp where
  | subscribe (filter : SubscriptionFilter)
  | unsubscribe (subId : UInt64)
  | dropReceiver (subId : UInt64)
  | deliver (message : Received)
  deriving DecidableEq

/-- The queue, what the channel of every subscription was sent, and the IDs given out. -/
structure Subscriptions where
  queue : DeliveryQueue
  received : UInt64 → List Received
  issued : List UInt64

namespace Subscriptions

/-- A new queue. -/
def new : Subscriptions := { queue := .new, received := fun _ => [], issued := [] }

/-- One operation. -/
def step (s : Subscriptions) : SubscriptionOp → Subscriptions
  | .subscribe filter =>
    let (queue, subId) := s.queue.subscribe filter
    { queue, received := Function.update s.received subId [], issued := s.issued ++ [subId] }
  | .unsubscribe subId => { s with queue := s.queue.unsubscribe subId }
  | .dropReceiver subId => { s with queue := s.queue.dropReceiver subId }
  | .deliver message =>
    let (queue, sentTo) := s.queue.deliver message
    { s with
      queue
      received := fun subId =>
        s.received subId ++ List.replicate (sentTo.count subId) message }

/-- The state after a run. -/
def run (s : Subscriptions) (ops : List SubscriptionOp) : Subscriptions := ops.foldl step s

end Subscriptions

/-- The subscription is registered, the message matches its filter, and its receiver is
there, or is not. -/
def DeliveryQueue.Matches (q : DeliveryQueue) (message : Received) (isOpen : Bool)
    (subId : UInt64) : Prop :=
  ∃ subscriber, q.subscribers.lookup subId = some subscriber ∧
    subscriber.filter.admits message = true ∧ subscriber.isOpen = isOpen

instance (q : DeliveryQueue) (message : Received) (isOpen : Bool) (subId : UInt64) :
    Decidable (q.Matches message isOpen subId) :=
  decidable_of_iff _ DeliveryQueue.mem_admitting_iff

/-- How often a run subscribes. -/
def subscribes : List SubscriptionOp → Nat
  | [] => 0
  | .subscribe _ :: ops => subscribes ops + 1
  | _ :: ops => subscribes ops

/-- The messages that a subscription with this ID and filter is sent in a run. -/
def deliveredUntil (subId : UInt64) (filter : SubscriptionFilter) (ops : List SubscriptionOp) :
    List Received :=
  (ops.takeWhile fun op => op ≠ .unsubscribe subId).filterMap fun
    | .deliver message => if filter.admits message then some message else none
    | _ => none

namespace Subscriptions

/-! ## One delivery -/

/-- **One `deliver`**: a copy for every subscriber that matches and is there, their number,
and the removal of those that match and are gone. -/
theorem step_deliver (s : Subscriptions) (message : Received) :
    (∀ subId, (s.step (.deliver message)).received subId
      = s.received subId ++ if s.queue.Matches message true subId then [message] else []) ∧
    (s.queue.deliver message).2.length
      = (s.queue.subscribers.keys.toFinset.filter (s.queue.Matches message true)).card ∧
    ∀ subId, (s.step (.deliver message)).queue.subscribers.lookup subId
      = if s.queue.Matches message false subId then none
        else s.queue.subscribers.lookup subId := by
  have hnodup := s.queue.deliver_nodup message
  refine ⟨fun subId => ?_, ?_, fun subId => ?_⟩
  · show s.received subId ++ List.replicate ((s.queue.deliver message).2.count subId) message = _
    by_cases hmatches : s.queue.Matches message true subId
    · rw [if_pos hmatches,
        List.count_eq_one_of_mem hnodup (DeliveryQueue.mem_deliver_iff.mpr hmatches)]
      rfl
    · rw [if_neg hmatches, List.count_eq_zero.mpr fun hmem =>
        hmatches (DeliveryQueue.mem_deliver_iff.mp hmem)]
      rfl
  · rw [← List.toFinset_card_of_nodup hnodup]
    congr 1
    refine Finset.ext fun subId => ?_
    rw [List.mem_toFinset, DeliveryQueue.mem_deliver_iff, Finset.mem_filter, List.mem_toFinset]
    refine ⟨fun hmatches => ⟨?_, hmatches⟩, fun h => h.2⟩
    obtain ⟨subscriber, hlookup, -⟩ := hmatches
    exact AList.mem_keys.mp (AList.lookup_isSome.mp (by rw [hlookup]; rfl))
  · refine (HashMap.lookup_foldl_erase_ite ..).trans ?_
    exact if_congr DeliveryQueue.mem_admitting_iff rfl rfl

/-! ## The IDs -/

theorem run_append (s : Subscriptions) (ops ops' : List SubscriptionOp) :
    s.run (ops ++ ops') = (s.run ops).run ops' :=
  List.foldl_append ..

theorem dropReceiver_nextSubId (q : DeliveryQueue) (subId : UInt64) :
    (q.dropReceiver subId).nextSubId = q.nextSubId := by
  unfold DeliveryQueue.dropReceiver
  split
  · rfl
  · rfl

/-- A step gives out the next ID and counts it up, or leaves both alone. -/
theorem step_issued (s : Subscriptions) (op : SubscriptionOp) (ops : List SubscriptionOp) :
    (subscribes (op :: ops) = subscribes ops + 1 ∧
      (s.step op).queue.nextSubId = s.queue.nextSubId + 1 ∧
      (s.step op).issued = s.issued ++ [s.queue.nextSubId]) ∨
    (subscribes (op :: ops) = subscribes ops ∧
      (s.step op).queue.nextSubId = s.queue.nextSubId ∧ (s.step op).issued = s.issued) := by
  cases op with
  | subscribe filter => exact Or.inl ⟨rfl, rfl, rfl⟩
  | unsubscribe subId => exact Or.inr ⟨rfl, rfl, rfl⟩
  | dropReceiver subId => exact Or.inr ⟨rfl, dropReceiver_nextSubId .., rfl⟩
  | deliver message => exact Or.inr ⟨rfl, rfl, rfl⟩

theorem add_ofNat_succ (n : UInt64) (i : Nat) :
    n + 1 + UInt64.ofNat i = n + UInt64.ofNat (i + 1) := by
  rw [UInt64.add_assoc, UInt64.ofNat_add, UInt64.add_comm (UInt64.ofNat i)]
  rfl

/-- IDs are given out one after the other. -/
theorem run_issued (s : Subscriptions) (ops : List SubscriptionOp) :
    (s.run ops).queue.nextSubId = s.queue.nextSubId + UInt64.ofNat (subscribes ops) ∧
    (s.run ops).issued = s.issued ++
      (List.range (subscribes ops)).map fun i => s.queue.nextSubId + UInt64.ofNat i := by
  induction ops generalizing s with
  | nil => exact ⟨(UInt64.add_zero _).symm, (List.append_nil _).symm⟩
  | cons op ops ih =>
    obtain ⟨hnext, hissued⟩ := ih (s.step op)
    rcases step_issued s op ops with ⟨hcount, hid, hlist⟩ | ⟨hcount, hid, hlist⟩
    · rw [hcount]
      refine ⟨hnext.trans ?_, hissued.trans ?_⟩
      · rw [hid, add_ofNat_succ]
      · rw [hid, hlist, List.range_succ_eq_map, List.map_cons, List.map_map, List.append_assoc,
          List.singleton_append, show UInt64.ofNat 0 = 0 from rfl, UInt64.add_zero]
        congr 2
        exact List.map_congr_left fun i _ => add_ofNat_succ s.queue.nextSubId i
    · rw [hcount]
      refine ⟨hnext.trans ?_, hissued.trans ?_⟩
      · rw [hid]
      · rw [hid, hlist]

/-- **IDs are distinct** as long as the counter has not come round. -/
theorem issued_nodup {ops : List SubscriptionOp} (h : subscribes ops ≤ 2 ^ 64) :
    (new.run ops).issued.Nodup := by
  rw [(run_issued new ops).2]
  refine List.Nodup.map_on (fun i hi j hj heq => ?_) List.nodup_range
  have hmod := congrArg UInt64.toNat ((UInt64.add_right_inj _).mp heq)
  rw [List.mem_range] at hi hj
  rw [UInt64.toNat_ofNat', UInt64.toNat_ofNat', Nat.mod_eq_of_lt (by omega),
    Nat.mod_eq_of_lt (by omega)] at hmod
  exact hmod

/-! ## What a receiver holds -/

/-- None of these operations gives out the ID. -/
def NotReissued (s : Subscriptions) (subId : UInt64) (ops : List SubscriptionOp) : Prop :=
  ∀ i < subscribes ops, s.queue.nextSubId + UInt64.ofNat i ≠ subId

theorem NotReissued.step {s : Subscriptions} {subId : UInt64} {op : SubscriptionOp}
    {ops : List SubscriptionOp} (h : s.NotReissued subId (op :: ops)) :
    (s.step op).NotReissued subId ops := by
  unfold NotReissued at h ⊢
  intro i hi
  rcases step_issued s op ops with ⟨hcount, hid, -⟩ | ⟨hcount, hid, -⟩
  · rw [hid, add_ofNat_succ]
    exact h (i + 1) (by omega)
  · rw [hid]
    exact h i (by omega)

theorem NotReissued.next_ne {s : Subscriptions} {subId : UInt64} {filter : SubscriptionFilter}
    {ops : List SubscriptionOp} (h : s.NotReissued subId (.subscribe filter :: ops)) :
    subId ≠ s.queue.nextSubId := by
  have hne := h 0 (Nat.succ_pos _)
  rw [show UInt64.ofNat 0 = 0 from rfl, UInt64.add_zero] at hne
  exact hne.symm

theorem dropReceiver_lookup_ne {q : DeliveryQueue} {subId other : UInt64} (h : subId ≠ other) :
    (q.dropReceiver other).subscribers.lookup subId = q.subscribers.lookup subId := by
  unfold DeliveryQueue.dropReceiver
  split
  · exact AList.lookup_insert_ne h
  · rfl

theorem dropReceiver_lookup_none {q : DeliveryQueue} {subId : UInt64}
    (h : q.subscribers.lookup subId = none) (other : UInt64) :
    (q.dropReceiver other).subscribers.lookup subId = none := by
  by_cases heq : subId = other
  · unfold DeliveryQueue.dropReceiver
    rw [← heq, h]
    exact h
  · exact (dropReceiver_lookup_ne heq).trans h

/-- A subscription that is not registered gets nothing more. -/
theorem received_of_unregistered {s : Subscriptions} {subId : UInt64}
    {ops : List SubscriptionOp} (hlookup : s.queue.subscribers.lookup subId = none)
    (hnew : s.NotReissued subId ops) : (s.run ops).received subId = s.received subId := by
  induction ops generalizing s with
  | nil => rfl
  | cons op ops ih =>
    -- one step leaves it unregistered, and its channel as it is
    have hstep : (s.step op).queue.subscribers.lookup subId = none ∧
        (s.step op).received subId = s.received subId := by
      cases op with
      | subscribe filter =>
        exact ⟨(AList.lookup_insert_ne hnew.next_ne).trans hlookup,
          Function.update_of_ne hnew.next_ne ..⟩
      | unsubscribe other =>
        refine ⟨?_, rfl⟩
        by_cases heq : subId = other
        · rw [heq]
          exact AList.lookup_erase ..
        · exact (AList.lookup_erase_ne heq).trans hlookup
      | dropReceiver other => exact ⟨dropReceiver_lookup_none hlookup other, rfl⟩
      | deliver message =>
        obtain ⟨hreceived, -, hremoved⟩ := step_deliver s message
        have hnone : ∀ isOpen, ¬ s.queue.Matches message isOpen subId := by
          intro isOpen hmatches
          obtain ⟨subscriber, hsome, -⟩ := hmatches
          rw [hlookup] at hsome
          cases hsome
        rw [hremoved, hreceived, if_neg (hnone _), if_neg (hnone _), List.append_nil]
        exact ⟨hlookup, rfl⟩
    exact (ih hstep.1 hnew.step).trans hstep.2

/-- A subscription whose receiver is there stays, and gets a message that it admits. -/
theorem deliver_registered {s : Subscriptions} {subId : UInt64} {filter : SubscriptionFilter}
    (hlookup : s.queue.subscribers.lookup subId = some { filter, isOpen := true })
    (message : Received) :
    (s.step (.deliver message)).queue.subscribers.lookup subId
      = some { filter, isOpen := true } ∧
    (s.step (.deliver message)).received subId
      = s.received subId ++ if filter.admits message = true then [message] else [] := by
  obtain ⟨hreceived, -, hremoved⟩ := step_deliver s message
  have hclosed : ¬ s.queue.Matches message false subId := by
    intro hmatches
    obtain ⟨subscriber, hsome, -, hopen⟩ := hmatches
    rw [← Option.some.inj (hlookup.symm.trans hsome)] at hopen
    cases hopen
  have hiff : s.queue.Matches message true subId ↔ filter.admits message = true := by
    constructor
    · intro hmatches
      obtain ⟨subscriber, hsome, hadmits, -⟩ := hmatches
      rw [← Option.some.inj (hlookup.symm.trans hsome)] at hadmits
      exact hadmits
    · intro hadmits
      exact ⟨_, hlookup, hadmits, rfl⟩
  rw [hremoved, if_neg hclosed, hreceived, if_congr hiff rfl rfl]
  exact ⟨hlookup, rfl⟩

/-- A subscription whose receiver stays gets the matching messages until it is unsubscribed. -/
theorem received_of_registered {s : Subscriptions} {subId : UInt64} {filter : SubscriptionFilter}
    {ops : List SubscriptionOp}
    (hlookup : s.queue.subscribers.lookup subId = some { filter, isOpen := true })
    (hnew : s.NotReissued subId ops) (hstays : .dropReceiver subId ∉ ops) :
    (s.run ops).received subId = s.received subId ++ deliveredUntil subId filter ops := by
  induction ops generalizing s with
  | nil => exact (List.append_nil _).symm
  | cons op ops ih =>
    have hstays' : .dropReceiver subId ∉ ops := fun hmem => hstays (List.mem_cons_of_mem op hmem)
    -- an operation that leaves the subscription and its channel alone
    have hother : (s.step op).queue.subscribers.lookup subId = some { filter, isOpen := true } →
        (s.step op).received subId = s.received subId →
        deliveredUntil subId filter (op :: ops) = deliveredUntil subId filter ops →
        (s.run (op :: ops)).received subId
          = s.received subId ++ deliveredUntil subId filter (op :: ops) := by
      intro hlookup' hreceived hdelivered
      rw [hdelivered, ← hreceived]
      exact ih hlookup' hnew.step hstays'
    cases op with
    | subscribe other =>
      exact hother ((AList.lookup_insert_ne hnew.next_ne).trans hlookup)
        (Function.update_of_ne hnew.next_ne ..) (by simp [deliveredUntil])
    | unsubscribe other =>
      by_cases heq : subId = other
      · subst heq
        rw [show deliveredUntil subId filter (.unsubscribe subId :: ops) = [] by
          simp [deliveredUntil], List.append_nil]
        exact received_of_unregistered (s := s.step (.unsubscribe subId))
          (AList.lookup_erase ..) hnew.step
      · exact hother ((AList.lookup_erase_ne heq).trans hlookup) rfl
          (by simp [deliveredUntil, Ne.symm heq])
    | dropReceiver other =>
      have hne : subId ≠ other := fun heq => hstays (heq ▸ List.mem_cons_self ..)
      exact hother ((dropReceiver_lookup_ne hne).trans hlookup) rfl (by simp [deliveredUntil])
    | deliver message =>
      obtain ⟨hregistered, hreceived⟩ := deliver_registered hlookup message
      refine (ih hregistered hnew.step hstays').trans ?_
      rw [hreceived, List.append_assoc]
      by_cases hadmits : filter.admits message = true
      · simp [deliveredUntil, hadmits]
      · simp [deliveredUntil, hadmits]

/-- **What a receiver holds**: the matching messages delivered during its subscription, in
the order of delivery. -/
theorem receiver_holds {before after : List SubscriptionOp} {filter : SubscriptionFilter}
    (hids : subscribes after < 2 ^ 64)
    (hstays : .dropReceiver (new.run before).queue.nextSubId ∉ after) :
    (new.run (before ++ .subscribe filter :: after)).received (new.run before).queue.nextSubId
      = deliveredUntil (new.run before).queue.nextSubId filter after := by
  rw [run_append]
  generalize new.run before = s at hstays ⊢
  show ((s.step (.subscribe filter)).run after).received s.queue.nextSubId = _
  have hlookup : (s.step (.subscribe filter)).queue.subscribers.lookup s.queue.nextSubId
      = some { filter, isOpen := true } := AList.lookup_insert _
  rw [received_of_registered hlookup ?_ hstays]
  · show Function.update s.received s.queue.nextSubId [] s.queue.nextSubId ++ _ = _
    rw [Function.update_self, List.nil_append]
  · intro i hi heq
    -- the counter would have come round
    have hzero : UInt64.ofNat (i + 1) = 0 := by
      rw [← UInt64.add_right_inj s.queue.nextSubId, UInt64.add_zero, ← add_ofNat_succ]
      exact heq
    have hmod := congrArg UInt64.toNat hzero
    rw [UInt64.toNat_ofNat', Nat.mod_eq_of_lt (by omega)] at hmod
    exact absurd hmod (Nat.succ_ne_zero i)

theorem subscribes_append (ops ops' : List SubscriptionOp) :
    subscribes (ops ++ ops') = subscribes ops + subscribes ops' := by
  induction ops with
  | nil => exact (Nat.zero_add _).symm
  | cons op ops ih =>
    cases op with
    | subscribe filter =>
      show subscribes (ops ++ ops') + 1 = subscribes ops + 1 + subscribes ops'
      omega
    | unsubscribe subId => exact ih
    | dropReceiver subId => exact ih
    | deliver message => exact ih

/-- **Delivery reaches exactly the matching live subscribers.** After any run, `deliver` puts
one copy on the channel of every registered subscriber that matches and whose receiver is
there, returns their number, and removes those that match and whose receiver is gone. With
at most 2^64 subscriptions all IDs are distinct, and every receiver that stays holds the
matching messages delivered during its subscription, in the order of delivery. -/
theorem deliveries_exact (ops : List SubscriptionOp) :
    (∀ message,
      (∀ subId, ((new.run ops).step (.deliver message)).received subId
        = (new.run ops).received subId
          ++ if (new.run ops).queue.Matches message true subId then [message] else []) ∧
      ((new.run ops).queue.deliver message).2.length
        = ((new.run ops).queue.subscribers.keys.toFinset.filter
            ((new.run ops).queue.Matches message true)).card ∧
      ∀ subId, ((new.run ops).step (.deliver message)).queue.subscribers.lookup subId
        = if (new.run ops).queue.Matches message false subId then none
          else (new.run ops).queue.subscribers.lookup subId) ∧
    (subscribes ops ≤ 2 ^ 64 →
      (new.run ops).issued.Nodup ∧
      ∀ before filter after, ops = before ++ .subscribe filter :: after →
        .dropReceiver (new.run before).queue.nextSubId ∉ after →
        (new.run ops).received (new.run before).queue.nextSubId
          = deliveredUntil (new.run before).queue.nextSubId filter after) := by
  refine ⟨step_deliver (new.run ops), fun hids => ⟨issued_nodup hids, ?_⟩⟩
  intro before filter after hops hstays
  subst hops
  have hcount : subscribes (.subscribe filter :: after) = subscribes after + 1 := rfl
  rw [subscribes_append, hcount] at hids
  exact receiver_holds (by omega) hstays

/-- A subscriber gets two of three messages, the last of them after it has gone. -/
theorem deliveries_exact_sample (m₁ m₂ m₃ : Received) :
    (new.run [.subscribe ⟨none, none, none⟩, .deliver m₁, .deliver m₂, .unsubscribe 1,
      .deliver m₃]).received 1 = [m₁, m₂] := by
  obtain ⟨-, hreceived⟩ := deliveries_exact [.subscribe ⟨none, none, none⟩, .deliver m₁,
    .deliver m₂, .unsubscribe 1, .deliver m₃]
  exact (hreceived (show 1 ≤ 2 ^ 64 by omega)).2 [] ⟨none, none, none⟩ _ rfl (by simp)

/-- The subscription after the first 2^64 has the ID of the first. -/
theorem not_nodup_of_many {n : Nat} (h : 2 ^ 64 < n) (filter : SubscriptionFilter) :
    ¬ (new.run (List.replicate n (.subscribe filter))).issued.Nodup := by
  have hcount : ∀ k, subscribes (List.replicate k (.subscribe filter)) = k := by
    intro k
    induction k with
    | zero => rfl
    | succ k ih => exact congrArg Nat.succ ih
  intro hnodup
  rw [(run_issued new _).2, hcount, show new.issued = [] from rfl, List.nil_append] at hnodup
  have hsame : UInt64.ofNat 0 = UInt64.ofNat (2 ^ 64) := rfl
  have hinj := List.inj_on_of_nodup_map hnodup (List.mem_range.mpr (Nat.zero_lt_of_lt h))
    (List.mem_range.mpr h) (congrArg (fun i => new.queue.nextSubId + i) hsame)
  omega

/-- IDs are reused once the counter has come round. -/
theorem id_reused : ¬ ∀ ops : List SubscriptionOp, (new.run ops).issued.Nodup := by
  intro h
  have hmany : ∀ n, ¬ 2 ^ 64 < n := fun n hn =>
    not_nodup_of_many hn ⟨none, none, none⟩ (h (List.replicate n (.subscribe ⟨none, none, none⟩)))
  exact hmany (2 ^ 64 + 1) (Nat.lt_succ_self _)

end Subscriptions

end MeshCore.Grpc
