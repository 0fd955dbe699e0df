import MeshCore.Grpc.Data

/-!
# Local subscribers (`mesh-grpc/src/delivery.rs`)

`DeliveryQueue::deliver` hands a message to every subscriber whose filter it
passes and whose stream is still open, and removes the ones whose stream is not.
What it hands over depends on the message and the subscribers only
(`mem_deliver_iff`).

Mirroring notes:
- The filters by partition and by QoS class let everything through, as in the
  source.
- Of the channel to a subscriber only whether its receiver is still there is
  kept. The buffers and the broadcast channel are left out: nothing reads them.
-/

namespace MeshCore.Grpc

open MeshCore.Lib MeshCore.Topology

/-- `SubscribeRequest`. -/
structure SubscribeRequest where
  partition : UInt32
  qosClass : UInt32
  srcNode : NodeId
  deriving Repr, DecidableEq

/-- `SubscriptionFilter`. -/
structure SubscriptionFilter where
  partition : Option UInt32
  qosClass : Option UInt32
  srcNode : Option NodeId
  deriving Repr, DecidableEq

namespace SubscriptionFilter

/-- `From<&SubscribeRequest>`: zero stands for no filter. -/
def ofRequest (req : SubscribeRequest) : SubscriptionFilter :=
  { partition := if req.partition = 0 then none else some req.partition
    qosClass := if req.qosClass = 0 then none else some req.qosClass
    srcNode := if req.srcNode = 0 then none else some req.srcNode }

/-- `matches`. -/
def admits (filter : SubscriptionFilter) (msg : Received) : Bool :=
  match filter.srcNode with
  | some srcNode => msg.srcNode == srcNode
  | none => true

end SubscriptionFilter

/-- `Subscriber`. `isOpen` says whether its receiver is still there. -/
structure Subscriber where
  filter : SubscriptionFilter
  isOpen : Bool
  deriving Repr, DecidableEq

/-- `DeliveryQueue`. -/
structure DeliveryQueue where
  subscribers : HashMap UInt64 Subscriber
  nextSubId : UInt64

namespace DeliveryQueue

/-- `DeliveryQueue::new`. -/
def new : DeliveryQueue := { subscribers := ∅, nextSubId := 1 }

/-- `subscribe`, with the ID of the subscription. -/
def subscribe (q : DeliveryQueue) (filter : SubscriptionFilter) : DeliveryQueue × UInt64 :=
  ({ subscribers := q.subscribers.insert q.nextSubId { filter, isOpen := true }
     nextSubId := q.nextSubId + 1 }, q.nextSubId)

/-- `unsubscribe`. -/
def unsubscribe (q : DeliveryQueue) (subId : UInt64) : DeliveryQueue :=
  { q with subscribers := q.subscribers.erase subId }

/-- The receiver of a subscription goes away. -/
def dropReceiver (q : DeliveryQueue) (subId : UInt64) : DeliveryQueue :=
  match q.subscribers.lookup subId with
  | some subscriber =>
    { q with subscribers := q.subscribers.insert subId { subscriber with isOpen := false } }
  | none => q

/-- The subscriptions a message passes the filter of, by whether it can be sent. -/
def admitting (q : DeliveryQueue) (message : Received) (isOpen : Bool) : List UInt64 :=
  (q.subscribers.entries.filter fun e =>
    e.2.filter.admits message && e.2.isOpen == isOpen).map Sigma.fst

/-- `deliver`, with the subscriptions the message was sent to. -/
def deliver (q : DeliveryQueue) (message : Received) : DeliveryQueue × List UInt64 :=
  let failedDeliveries := q.admitting message false
  ({ q with subscribers := failedDeliveries.foldl (fun m subId => m.erase subId) q.subscribers },
    q.admitting message true)

/-- `subscriber_count`. -/
def subscriberCount (q : DeliveryQueue) : Nat := q.subscribers.entries.length

theorem mem_admitting_iff {q : DeliveryQueue} {message : Received} {isOpen : Bool}
    {subId : UInt64} :
    subId ∈ q.admitting message isOpen ↔
      ∃ subscriber, q.subscribers.lookup subId = some subscriber ∧
        subscriber.filter.admits message = true ∧ subscriber.isOpen = isOpen := by
  unfold admitting
  rw [List.mem_map]
  constructor
  · intro h
    obtain ⟨⟨subId', subscriber⟩, hmem, rfl⟩ := h
    obtain ⟨hentry, hboth⟩ := List.mem_filter.mp hmem
    obtain ⟨hadmits, hopen⟩ := Bool.and_eq_true_iff.mp hboth
    exact ⟨subscriber, HashMap.mem_entries_iff.mp hentry, hadmits, eq_of_beq hopen⟩
  · intro h
    obtain ⟨subscriber, hlookup, hadmits, hopen⟩ := h
    refine ⟨⟨subId, subscriber⟩, List.mem_filter.mpr ⟨HashMap.mem_entries_iff.mpr hlookup, ?_⟩, rfl⟩
    dsimp only
    rw [hadmits, hopen, beq_self_eq_true]
    rfl

/-- **Who gets a message.** -/
theorem mem_deliver_iff {q : DeliveryQueue} {message : Received} {subId : UInt64} :
    subId ∈ (q.deliver message).2 ↔
      ∃ subscriber, q.subscribers.lookup subId = some subscriber ∧
        subscriber.filter.admits message = true ∧ subscriber.isOpen = true :=
  mem_admitting_iff

/-- Nobody gets a message twice from one call. -/
theorem deliver_nodup (q : DeliveryQueue) (message : Received) : (q.deliver message).2.Nodup := by
  have hkeys : (q.subscribers.entries.map Sigma.fst).Nodup := q.subscribers.nodupKeys
  exact hkeys.sublist (List.filter_sublist.map Sigma.fst)

theorem deliver_of_no_subscribers {q : DeliveryQueue} (h : q.subscriberCount = 0)
    (message : Received) : (q.deliver message).2 = [] := by
  show q.admitting message true = []
  unfold admitting
  rw [List.length_eq_zero_iff.mp h]
  rfl

end DeliveryQueue

end MeshCore.Grpc
