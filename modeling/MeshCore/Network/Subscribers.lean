import MeshCore.Network.Delivery
import MeshCore.Network.Confirmations
import MeshCore.Grpc.Subscriptions

/-!
# From a client to a subscriber

A client at one node sends messages to another under one correlation ID, and a client there
has subscribed. Between them are two data services and a mesh of managers, sessions and
sockets. A run of `ServedMesh` is a run of the mesh (`run_mesh`), in which the flow arrives
in order (`Flow.Inv.ofRun`), and what a service takes from its mesh it hands to the
subscriptions that are registered (`step_stream`). Hence a subscription is handed the
messages of the flow from the first on that is taken after `subscribe`, in the order in
which they were sent, without a gap and with nothing in between (`subscriber_in_order`).
-/

namespace MeshCore.Network

open MeshCore.Lib MeshCore.Wire MeshCore.Session MeshCore.Grpc
open MeshCore.Routing
open MeshCore.Topology (NodeId)

/-! ## A run is a run of the mesh -/

namespace ServedMesh

variable (env : SessionEnv) (peer : SessionEnd → NodeId)
variable (toVec : DeliveryStatusMessage → Option Bytes)
variable (fromSlice : Bytes → Option DeliveryStatusMessage)

/-- The steps of the mesh in a piece of work. -/
def meshSteps (s : ServedMesh) : ServedStep → List MeshStep
  | .mesh a => [a]
  | .event n event => ((s.node n).step toVec fromSlice event).outbound.map (.submit n)
  | .stream n req now isOpen =>
    ((s.node n).service.sendWithStatusStream req now isOpen).outbound.map (.submit n)
  | .take n now =>
    match (s.mesh.delivered n)[s.taken n]? with
    | none => []
    | some i =>
      ((s.node n).handleIncomingMessage toVec fromSlice (receivedOf i) now).outbound.map (.submit n)

/-- The steps of the mesh in a run. -/
def trace (s : ServedMesh) : List ServedStep → List MeshStep
  | [] => []
  | a :: steps =>
    s.meshSteps toVec fromSlice a ++ trace (s.step env peer toVec fromSlice a) steps

variable {env peer toVec fromSlice}

theorem step_mesh (s : ServedMesh) (a : ServedStep) :
    (s.step env peer toVec fromSlice a).mesh
      = (s.meshSteps toVec fromSlice a).foldl (Mesh.step env peer) s.mesh := by
  cases a with
  | mesh a => rfl
  | event n event => exact submitAll_eq ..
  | stream n req now isOpen => exact submitAll_eq ..
  | take n now =>
    unfold step meshSteps
    dsimp only
    cases (s.mesh.delivered n)[s.taken n]? with
    | none => rfl
    | some i => exact submitAll_eq ..

/-- **The mesh in a run** has taken the steps of the trace. -/
theorem run_mesh (s : ServedMesh) (steps : List ServedStep) :
    (steps.foldl (step env peer toVec fromSlice) s).mesh
      = (s.trace env peer toVec fromSlice steps).foldl (Mesh.step env peer) s.mesh := by
  induction steps generalizing s with
  | nil => rfl
  | cons a steps ih =>
    rw [List.foldl_cons, ih, step_mesh, ← List.foldl_append]
    rfl

/-- What has been sent stays sent. -/
theorem sent_step (s : ServedMesh) (a : ServedStep) :
    s.sent ⊆ (s.step env peer toVec fromSlice a).sent := by
  cases a with
  | mesh a => exact List.Subset.refl _
  | event n event => exact List.subset_append_left ..
  | stream n req now isOpen => exact List.subset_append_left ..
  | take n now =>
    unfold step
    dsimp only
    cases (s.mesh.delivered n)[s.taken n]? with
    | none => exact List.Subset.refl _
    | some i => exact List.Subset.refl _

theorem sent_run (s : ServedMesh) (steps : List ServedStep) :
    s.sent ⊆ (steps.foldl (step env peer toVec fromSlice) s).sent := by
  induction steps generalizing s with
  | nil => exact List.Subset.refl _
  | cons a steps ih => exact List.Subset.trans (sent_step s a) (ih _)

/-- What a piece of work gives the mesh: a step of its own, or messages that a service
emits. -/
theorem mem_meshSteps (peer : SessionEnd → NodeId) (hjson : JsonReadsBack toVec fromSlice)
    {s : ServedMesh} (h : s.Inv env fromSlice) {a : ServedStep} (ha : a.Honest) {b : MeshStep}
    (hb : b ∈ s.meshSteps toVec fromSlice a) :
    a = .mesh b ∨ ∃ n m, b = .submit n m ∧ m.srcNode = n ∧
      (m ∈ (s.step env peer toVec fromSlice a).sent ∨ m.corrId = 0) := by
  cases a with
  | mesh a => exact .inl (congrArg _ (List.mem_singleton.mp hb).symm)
  | event n event =>
    obtain ⟨m, hm, rfl⟩ := List.mem_map.mp hb
    obtain ⟨-, hout, -⟩ := h.node_event hjson ha
    exact .inr ⟨n, m, rfl, (hout m hm).srcNode, (hout m hm).own⟩
  | stream n req now isOpen =>
    obtain ⟨m, hm, rfl⟩ := List.mem_map.mp hb
    obtain ⟨-, hout, -⟩ := h.node_stream ha
    exact .inr ⟨n, m, rfl, (hout m hm).srcNode, (hout m hm).own⟩
  | take n now =>
    unfold meshSteps at hb
    unfold step
    dsimp only at hb ⊢
    cases hi : (s.mesh.delivered n)[s.taken n]? with
    | none =>
      rw [hi] at hb
      exact absurd hb List.not_mem_nil
    | some i =>
      rw [hi] at hb
      obtain ⟨m, hm, rfl⟩ := List.mem_map.mp hb
      have hbacked := h.carried.delivered n i (List.mem_of_getElem? hi)
      obtain ⟨-, hout, -⟩ := (h.nodes n).arrive hjson hbacked now
      exact .inr ⟨n, m, rfl, (hout m hm).srcNode, (hout m hm).own⟩

end ServedMesh

/-- A node on the route that is reconfigured keeps the next hop. -/
def ServedStep.Keeps (F : Flow) (hops : List SessionEnd) : ServedStep → Prop
  | .mesh (.reconfigure n routingTable sessions) =>
    ∀ tx, (n, tx) ∈ hops → F.LeadsTo { localNodeId := n, routingTable, sessions } tx
  | _ => True

/-- **The steps of the mesh respect the route**, if the clients' messages of the flow are
clean. -/
theorem ServedMesh.trace_respects {env : SessionEnv} {peer : SessionEnd → NodeId}
    {toVec : DeliveryStatusMessage → Option Bytes}
    {fromSlice : Bytes → Option DeliveryStatusMessage}
    (hread : ReadsBack env.crates env.fromReader) (hjson : JsonReadsBack toVec fromSlice)
    {F : Flow} (hcorr : F.corrId ≠ 0) {hops : List SessionEnd} {s : ServedMesh}
    (h : s.Inv env fromSlice) {steps : List ServedStep} (hhonest : ∀ a ∈ steps, a.Honest)
    (hkeeps : ∀ a ∈ steps, a.Keeps F hops)
    (hclean : ∀ m ∈ (steps.foldl (step env peer toVec fromSlice) s).sent,
      F.Carries m → Clean env m) :
    ∀ b ∈ s.trace env peer toVec fromSlice steps, b.Respects env F hops := by
  induction steps generalizing s with
  | nil => exact fun b hb => absurd hb List.not_mem_nil
  | cons a steps ih =>
    have hself : a ∈ a :: steps := List.mem_cons_self ..
    intro b hb
    rcases List.mem_append.mp hb with hb | hb
    · rcases mem_meshSteps peer hjson h (hhonest a hself) hb with
        rfl | ⟨n, m, rfl, hsrc, hown⟩
      · have hhonest' := hhonest _ hself
        have hkeeps' := hkeeps _ hself
        cases b with
        | submit n m => exact absurd hhonest' id
        | reconfigure n routingTable sessions => exact hkeeps'
        | _ => trivial
      · refine ⟨hsrc, fun hcarries => ?_⟩
        refine hclean m (sent_run _ steps (hown.resolve_right fun hzero => ?_)) hcarries
        exact hcorr (hcarries.2.2.symm.trans hzero)
    · exact ih (h.step hread hjson (hhonest a hself))
        (fun c hc => hhonest c (List.mem_cons_of_mem _ hc))
        (fun c hc => hkeeps c (List.mem_cons_of_mem _ hc)) hclean b hb

/-! ## What a subscription is handed -/

/-- What a subscription at a node was handed. -/
def streamOf (handed : List Handing) (n : NodeId) (subId : UInt64) : List Received :=
  (handed.filter fun h => h.node = n ∧ h.subId = subId).map Handing.message

theorem streamOf_append (handed handed' : List Handing) (n : NodeId) (subId : UInt64) :
    streamOf (handed ++ handed') n subId = streamOf handed n subId ++ streamOf handed' n subId := by
  unfold streamOf
  rw [List.filter_append, List.map_append]

/-- Nothing is handed to a subscription at another node. -/
theorem streamOf_other {n n' : NodeId} (h : n' ≠ n) (message : Received) (subIds : List UInt64)
    (subId : UInt64) : streamOf (handingsOf n' message subIds) n subId = [] := by
  unfold streamOf handingsOf
  rw [List.filter_eq_nil_iff.mpr]
  · rfl
  · intro at_ hmem
    obtain ⟨id, -, rfl⟩ := List.mem_map.mp hmem
    simp [h]

/-- A message is handed to a subscription as often as it is among the chosen ones. -/
theorem streamOf_handingsOf (n : NodeId) (message : Received) (subIds : List UInt64)
    (subId : UInt64) : streamOf (handingsOf n message subIds) n subId
      = List.replicate (subIds.count subId) message := by
  induction subIds with
  | nil => rfl
  | cons id subIds ih =>
    have hcons : streamOf (handingsOf n message (id :: subIds)) n subId
        = (if id = subId then [message] else [])
          ++ streamOf (handingsOf n message subIds) n subId := by
      rw [show handingsOf n message (id :: subIds)
        = [⟨n, id, message⟩] ++ handingsOf n message subIds from rfl, streamOf_append]
      refine congrArg (· ++ _) ?_
      unfold streamOf
      by_cases hid : id = subId
      · simp [hid]
      · simp [hid]
    rw [hcons, ih, List.count_cons]
    by_cases hid : id = subId
    · rw [if_pos hid, if_pos (by simpa using hid), List.replicate_succ]
      rfl
    · rw [if_neg hid, if_neg (by simpa using hid), Nat.add_zero]
      rfl

/-- The messages that the service of a node has taken. -/
def ServedMesh.takenAt (s : ServedMesh) (n : NodeId) : List InboundMessage :=
  (s.mesh.delivered n).take (s.taken n)

/-- The subscription is there, and so is its client. -/
def ServedMesh.Registered (s : ServedMesh) (n : NodeId) (subId : UInt64)
    (filter : SubscriptionFilter) : Prop :=
  (s.node n).deliveryQueue.subscribers.lookup subId = some { filter, isOpen := true }

/-- The step does not end a subscription. -/
def ServedStep.Spares (n : NodeId) (subId : UInt64) : ServedStep → Prop
  | .event n' (.unsubscribe other) => n' = n → other ≠ subId
  | .event n' (.dropReceiver other) => n' = n → other ≠ subId
  | _ => True

/-- How often a client of the node subscribes in a run. -/
def subscribesAt (n : NodeId) : List ServedStep → Nat
  | [] => 0
  | .event n' (.subscribe _) :: steps =>
    if n' = n then subscribesAt n steps + 1 else subscribesAt n steps
  | _ :: steps => subscribesAt n steps

/-- No step of the run gives out the ID again. -/
def ServedMesh.NotReissued (s : ServedMesh) (n : NodeId) (subId : UInt64)
    (steps : List ServedStep) : Prop :=
  ∀ i < subscribesAt n steps, (s.node n).deliveryQueue.nextSubId + UInt64.ofNat i ≠ subId

/-- What a subscription is handed of the messages that arrive. -/
def keeps (n : NodeId) (filter : SubscriptionFilter) (message : Received) : Bool :=
  incoming n message = .application && filter.admits message

section Steps

variable {env : SessionEnv} {peer : SessionEnd → NodeId}
variable {toVec : DeliveryStatusMessage → Option Bytes}
variable {fromSlice : Bytes → Option DeliveryStatusMessage}

/-- Only an arrival changes the subscribers, clients apart. -/
theorem statusStep_deliveryQueue (node : DataNode) {event : DataNode.StatusEvent}
    (hevent : ∀ message now, event ≠ .incoming message now) :
    (node.statusStep toVec fromSlice event).node.deliveryQueue = node.deliveryQueue := by
  cases event with
  | incoming message now => exact absurd rfl (hevent message now)
  | retryTick now =>
    unfold DataNode.statusStep
    dsimp only
    split
    · rfl
    · rfl
  | retryTake now =>
    show (node.retryTake now).deliveryQueue = _
    unfold DataNode.retryTake
    split
    · rfl
    · rfl
  | retrySend now isOpen =>
    show (node.retrySend now isOpen).1.deliveryQueue = _
    unfold DataNode.retrySend
    split
    · rfl
    · rfl
  | _ => rfl

/-- **An arrival**, for a subscription that is there: it stays, and is handed the message if
the message is for an application and its filter admits it. -/
theorem arrival_registered (toVec : DeliveryStatusMessage → Option Bytes)
    (fromSlice : Bytes → Option DeliveryStatusMessage) {node : DataNode} {subId : UInt64}
    {filter : SubscriptionFilter}
    (hlookup : node.deliveryQueue.subscribers.lookup subId = some { filter, isOpen := true })
    (message : Received) (now : Nat) :
    let handled := node.handleIncomingMessage toVec fromSlice message now
    handled.node.deliveryQueue.subscribers.lookup subId = some { filter, isOpen := true } ∧
      List.replicate (handled.handed.count subId) message
        = [message].filter (keeps node.service.nodeId filter) := by
  intro handled
  by_cases hin : incoming node.service.nodeId message = .application
  · have hhandled : handled = node.handleApplicationMessage toVec message := by
      show node.handleIncomingMessage toVec fromSlice message now = _
      unfold DataNode.handleIncomingMessage
      rw [hin]
    -- there is a subscriber, so `deliver` is called
    have hsome : node.deliveryQueue.subscriberCount ≠ 0 := by
      intro hzero
      have hmem := HashMap.mem_entries_iff.mpr hlookup
      rw [List.length_eq_zero_iff.mp hzero] at hmem
      exact absurd hmem List.not_mem_nil
    obtain ⟨hstays, hreceived⟩ := Subscriptions.deliver_registered
      (s := ⟨node.deliveryQueue, fun _ => [], []⟩) hlookup message
    replace hreceived : [] ++ List.replicate ((node.deliveryQueue.deliver message).2.count subId)
      message = [] ++ if filter.admits message = true then [message] else [] := hreceived
    rw [List.nil_append, List.nil_append] at hreceived
    rw [hhandled, node.deliveryQueue_application toVec message hsome,
      DataNode.handed_application node toVec message]
    refine ⟨hstays, ?_⟩
    rw [hreceived]
    by_cases hadmits : filter.admits message = true
    · simp [keeps, hin, hadmits]
    · simp [keeps, hadmits]
  · obtain ⟨hqueue, hhanded⟩ := node.handleIncomingMessage_other toVec fromSlice now hin
    rw [show handled.node.deliveryQueue = node.deliveryQueue from hqueue,
      show handled.handed = [] from hhanded]
    refine ⟨hlookup, ?_⟩
    simp [keeps, hin]

namespace ServedMesh

/-- What a step does to a subscription that stays. -/
structure Handed (n : NodeId) (subId : UInt64) (filter : SubscriptionFilter)
    (s s' : ServedMesh) (since : List Handing) (new : List InboundMessage) : Prop where
  registered : s'.Registered n subId filter
  handed : s'.handed = s.handed ++ since
  taken : s'.takenAt n = s.takenAt n ++ new
  stream : streamOf since n subId = (new.map receivedOf).filter (keeps n filter)

/-- Nothing was taken. -/
theorem Handed.of_none {n : NodeId} {subId : UInt64} {filter : SubscriptionFilter}
    {s s' : ServedMesh} {since : List Handing} (hregistered : s'.Registered n subId filter)
    (hhanded : s'.handed = s.handed ++ since) (htaken : s'.takenAt n = s.takenAt n)
    (hstream : streamOf since n subId = []) : Handed n subId filter s s' since [] :=
  ⟨hregistered, hhanded, by rw [htaken, List.append_nil], hstream⟩

/-- Clients come and go at the node. -/
theorem event_registered {s : ServedMesh} {n : NodeId} {subId : UInt64}
    {filter : SubscriptionFilter} (hreg : s.Registered n subId filter)
    {event : DataNode.NodeEvent} (ha : (ServedStep.event n event).Honest)
    (hspares : (ServedStep.event n event).Spares n subId)
    (hnew : ∀ req, event = .subscribe req → (s.node n).deliveryQueue.nextSubId ≠ subId) :
    ((s.node n).step toVec fromSlice event).node.deliveryQueue.subscribers.lookup subId
      = some { filter, isOpen := true } := by
  cases event with
  | status event =>
    have hevent : ∀ message now, event ≠ .incoming message now := by
      intro message now heq
      rw [heq] at ha
      exact ha
    show ((s.node n).statusStep toVec fromSlice event).node.deliveryQueue.subscribers.lookup subId
      = _
    rw [statusStep_deliveryQueue _ hevent]
    exact hreg
  | send req now isOpen => exact hreg
  | subscribe req => exact (AList.lookup_insert_ne (hnew req rfl).symm).trans hreg
  | unsubscribe other => exact (AList.lookup_erase_ne (hspares rfl).symm).trans hreg
  | dropReceiver other =>
    exact (Subscriptions.dropReceiver_lookup_ne (hspares rfl).symm).trans hreg

/-- A call of `send_with_status_stream` leaves the subscribers of every node. -/
theorem stream_deliveryQueue (s : ServedMesh) (n' : NodeId) (req : SendRequest) (now : Nat)
    (isOpen : Bool) (n : NodeId) :
    ((s.step env peer toVec fromSlice (.stream n' req now isOpen)).node n).deliveryQueue
      = (s.node n).deliveryQueue := by
  show (Function.update s.node n' _ n).deliveryQueue = _
  by_cases hn : n = n'
  · rw [hn, Function.update_self]
  · rw [Function.update_of_ne hn]

/-- **A step, for a subscription that stays.** -/
theorem step_stream {s : ServedMesh} (h : s.Inv env fromSlice) {n : NodeId} {subId : UInt64}
    {filter : SubscriptionFilter} (hreg : s.Registered n subId filter) {a : ServedStep}
    (ha : a.Honest) (hspares : a.Spares n subId)
    (hnew : ∀ req, a = .event n (.subscribe req) →
      (s.node n).deliveryQueue.nextSubId ≠ subId) :
    ∃ since new, Handed n subId filter s (s.step env peer toVec fromSlice a) since new := by
  cases a with
  | mesh a =>
    have hprefix := delivered_grows peer h.carried.toUnderWay a n
    refine ⟨[], [], .of_none hreg (List.append_nil _).symm ?_ rfl⟩
    obtain ⟨added, hadded⟩ := hprefix
    show ((s.mesh.step env peer a).delivered n).take (s.taken n) = _
    rw [← hadded, List.take_append_of_le_length (h.taken n)]
    rfl
  | event n' event =>
    have hdelivered : (s.step env peer toVec fromSlice (.event n' event)).mesh.delivered
        = s.mesh.delivered := delivered_submitAll ..
    refine ⟨[], [], .of_none ?_ (List.append_nil _).symm ?_ rfl⟩
    · show (Function.update s.node n' _ n).deliveryQueue.subscribers.lookup subId = _
      by_cases hn : n = n'
      · subst hn
        rw [Function.update_self]
        exact event_registered hreg ha hspares fun req heq => hnew req (by rw [heq])
      · rw [Function.update_of_ne hn]
        exact hreg
    · unfold takenAt
      rw [hdelivered]
      rfl
  | stream n' req now isOpen =>
    have hdelivered : (s.step env peer toVec fromSlice (.stream n' req now isOpen)).mesh.delivered
        = s.mesh.delivered := delivered_submitAll ..
    refine ⟨[], [], .of_none ?_ (List.append_nil _).symm ?_ rfl⟩
    · unfold Registered
      rw [stream_deliveryQueue]
      exact hreg
    · unfold takenAt
      rw [hdelivered]
      rfl
  | take n' now =>
    cases hi : (s.mesh.delivered n')[s.taken n']? with
    | none =>
      rw [step_take_none env peer toVec fromSlice now hi]
      exact ⟨[], [], .of_none hreg (List.append_nil _).symm rfl rfl⟩
    | some i =>
      rw [step_take_some env peer toVec fromSlice now hi]
      by_cases hn : n = n'
      · subst hn
        obtain ⟨hstays, hcount⟩ := arrival_registered toVec fromSlice
          hreg (receivedOf i) now
        rw [(h.nodes n).nodeId] at hcount
        refine ⟨_, [i], ?_, rfl, ?_, ?_⟩
        · unfold Registered
          dsimp only
          rw [Function.update_self]
          exact hstays
        · unfold takenAt
          dsimp only
          rw [Function.update_self, delivered_submitAll, List.take_add_one, hi]
          rfl
        · rw [streamOf_handingsOf]
          exact hcount
      · refine ⟨_, [], .of_none ?_ rfl ?_ (streamOf_other (Ne.symm hn) ..)⟩
        · unfold Registered
          dsimp only
          rw [Function.update_of_ne hn]
          exact hreg
        · unfold takenAt
          dsimp only
          rw [Function.update_of_ne hn, delivered_submitAll]

/-- An arrival gives out no ID. -/
theorem incoming_nextSubId (node : DataNode) (message : Received) (now : Nat) :
    (node.handleIncomingMessage toVec fromSlice message now).node.deliveryQueue.nextSubId
      = node.deliveryQueue.nextSubId := by
  obtain ⟨_, _, _, hnode, hids⟩ := node.handleIncomingMessage_parts toVec fromSlice message now
  rw [hnode]
  exact hids

variable (env peer toVec fromSlice)

/-- A step gives out the next ID at the node and counts it up, or leaves it. -/
theorem step_issues {s : ServedMesh} {a : ServedStep} (ha : a.Honest) (n : NodeId)
    (steps : List ServedStep) :
    ((∃ req, a = .event n (.subscribe req)) ∧
      subscribesAt n (a :: steps) = subscribesAt n steps + 1 ∧
      ((s.step env peer toVec fromSlice a).node n).deliveryQueue.nextSubId
        = (s.node n).deliveryQueue.nextSubId + 1) ∨
    ((∀ req, a ≠ .event n (.subscribe req)) ∧
      subscribesAt n (a :: steps) = subscribesAt n steps ∧
      ((s.step env peer toVec fromSlice a).node n).deliveryQueue.nextSubId
        = (s.node n).deliveryQueue.nextSubId) := by
  cases a with
  | mesh a => exact .inr ⟨fun req h => absurd h (by simp), rfl, rfl⟩
  | stream n' req now isOpen =>
    exact .inr ⟨fun req h => absurd h (by simp), rfl,
      congrArg DeliveryQueue.nextSubId (stream_deliveryQueue s n' req now isOpen n)⟩
  | take n' now =>
    refine .inr ⟨fun req h => absurd h (by simp), rfl, ?_⟩
    unfold step
    dsimp only
    cases (s.mesh.delivered n')[s.taken n']? with
    | none => rfl
    | some i =>
      dsimp only
      by_cases hn : n = n'
      · rw [hn, Function.update_self]
        exact incoming_nextSubId ..
      · rw [Function.update_of_ne hn]
  | event n' event =>
    by_cases hn : n = n'
    · subst hn
      have hnode : ((s.step env peer toVec fromSlice (.event n event)).node n)
          = ((s.node n).step toVec fromSlice event).node := Function.update_self ..
      rw [hnode]
      cases event with
      | subscribe req => exact .inl ⟨⟨req, rfl⟩, if_pos rfl, rfl⟩
      | status event =>
        have hevent : ∀ message now, event ≠ .incoming message now := by
          intro message now heq
          rw [heq] at ha
          exact ha
        refine .inr ⟨fun req h => absurd h (by simp), rfl, ?_⟩
        exact congrArg DeliveryQueue.nextSubId (statusStep_deliveryQueue (s.node n) hevent)
      | send req now isOpen => exact .inr ⟨fun req h => absurd h (by simp), rfl, rfl⟩
      | unsubscribe other => exact .inr ⟨fun req h => absurd h (by simp), rfl, rfl⟩
      | dropReceiver other =>
        exact .inr ⟨fun req h => absurd h (by simp), rfl,
          Subscriptions.dropReceiver_nextSubId ..⟩
    · have hnode : ((s.step env peer toVec fromSlice (.event n' event)).node n) = s.node n :=
        Function.update_of_ne hn ..
      refine .inr ⟨fun req h => hn (ServedStep.event.inj h).1.symm, ?_, by rw [hnode]⟩
      cases event with
      | subscribe req => exact if_neg (Ne.symm hn)
      | _ => rfl

theorem NotReissued.step {s : ServedMesh} {n : NodeId} {subId : UInt64} {a : ServedStep}
    {steps : List ServedStep} (ha : a.Honest) (h : s.NotReissued n subId (a :: steps)) :
    (s.step env peer toVec fromSlice a).NotReissued n subId steps ∧
      ∀ req, a = .event n (.subscribe req) → (s.node n).deliveryQueue.nextSubId ≠ subId := by
  unfold NotReissued at h ⊢
  rcases step_issues env peer toVec fromSlice (s := s) ha n steps with
    ⟨-, hcount, hnext⟩ | ⟨hno, hcount, hnext⟩
  · rw [hcount] at h
    refine ⟨fun i hi => ?_, fun _ _ => ?_⟩
    · rw [hnext, Subscriptions.add_ofNat_succ]
      exact h (i + 1) (by omega)
    · have hzero := h 0 (Nat.succ_pos _)
      rw [show UInt64.ofNat 0 = 0 from rfl, UInt64.add_zero] at hzero
      exact hzero
  · rw [hcount] at h
    refine ⟨fun i hi => ?_, fun req heq => absurd heq (hno req)⟩
    rw [hnext]
    exact h i hi

/-- After `subscribe` the subscription is there, and its ID is not given out again before the
counter has come round. -/
theorem subscribe_registered (s : ServedMesh) (n : NodeId) (req : SubscribeRequest)
    {after : List ServedStep} (hids : subscribesAt n after < 2 ^ 64) :
    (s.step env peer toVec fromSlice (.event n (.subscribe req))).Registered n
        (s.node n).deliveryQueue.nextSubId (.ofRequest req) ∧
      (s.step env peer toVec fromSlice (.event n (.subscribe req))).NotReissued n
        (s.node n).deliveryQueue.nextSubId after := by
  have hself : (s.step env peer toVec fromSlice (.event n (.subscribe req))).node n
      = { s.node n with
          deliveryQueue := ((s.node n).deliveryQueue.subscribe (.ofRequest req)).1 } :=
    Function.update_self ..
  constructor
  · unfold Registered
    rw [hself]
    exact AList.lookup_insert _
  · intro i hi heq
    rw [hself] at heq
    replace heq : (s.node n).deliveryQueue.nextSubId + 1 + UInt64.ofNat i
      = (s.node n).deliveryQueue.nextSubId := heq
    have hzero : UInt64.ofNat (i + 1) = 0 := by
      rw [← UInt64.add_right_inj (s.node n).deliveryQueue.nextSubId, UInt64.add_zero,
        ← Subscriptions.add_ofNat_succ]
      exact heq
    have hmod := congrArg UInt64.toNat hzero
    rw [UInt64.toNat_ofNat', Nat.mod_eq_of_lt (by omega)] at hmod
    exact absurd hmod (Nat.succ_ne_zero i)

variable {env peer toVec fromSlice}

/-- **A run, for a subscription that stays.** -/
theorem run_stream (hread : ReadsBack env.crates env.fromReader)
    (hjson : JsonReadsBack toVec fromSlice) {s : ServedMesh} (h : s.Inv env fromSlice)
    {n : NodeId} {subId : UInt64} {filter : SubscriptionFilter} (hreg : s.Registered n subId filter)
    {steps : List ServedStep} (hhonest : ∀ a ∈ steps, a.Honest)
    (hspares : ∀ a ∈ steps, a.Spares n subId) (hnew : s.NotReissued n subId steps) :
    ∃ since new,
      Handed n subId filter s (steps.foldl (ServedMesh.step env peer toVec fromSlice) s) since
        new := by
  induction steps generalizing s with
  | nil => exact ⟨[], [], .of_none hreg (List.append_nil _).symm rfl rfl⟩
  | cons a steps ih =>
    have hself : a ∈ a :: steps := List.mem_cons_self ..
    obtain ⟨hnew', hissue⟩ := hnew.step env peer toVec fromSlice (hhonest a hself)
    obtain ⟨since, new, hstep⟩ : ∃ since new,
        Handed n subId filter s (s.step env peer toVec fromSlice a) since new :=
      step_stream h hreg (hhonest a hself) (hspares a hself) hissue
    obtain ⟨since', new', hrest⟩ := ih (h.step hread hjson (hhonest a hself)) hstep.registered
      (fun b hb => hhonest b (List.mem_cons_of_mem _ hb))
      (fun b hb => hspares b (List.mem_cons_of_mem _ hb)) hnew'
    refine ⟨since ++ since', new ++ new', hrest.registered, ?_, ?_, ?_⟩
    · rw [List.foldl_cons, hrest.handed, hstep.handed, List.append_assoc]
    · rw [List.foldl_cons, hrest.taken, hstep.taken, List.append_assoc]
    · rw [streamOf_append, hstep.stream, hrest.stream, List.map_append, List.filter_append]

end ServedMesh

end Steps

/-! ## The messages of a flow at a subscription -/

/-- What a message says that a subscription was handed. -/
def contentsOf (r : Received) : MessageContents where
  srcNode := r.srcNode
  dstNode := r.dstNode
  payload := r.payload
  headers := fun key => (r.headers.reverse.find? fun header => header.key = key).map Header.value
  corrId := r.corrId
  msgId := if r.msgId = 0 then none else some r.msgId
  requireAck := r.requireAck

namespace Flow

variable (F : Flow)

/-- A message of the flow that a subscription was handed. -/
def ofReceived (r : Received) : Option MessageContents :=
  if (r.srcNode = F.src ∧ r.dstNode = F.dst ∧ r.corrId = F.corrId) ∧
      (contentsOf r).headers "frame_type" = none then
    some (contentsOf r)
  else none

/-- A message of the flow that arrives. -/
def ofInbound (i : InboundMessage) : Option MessageContents := F.ofOutbound i.forwarded

theorem contentsOf_receivedOf_headers (i : InboundMessage) (key : String) :
    (contentsOf (receivedOf i)).headers key = i.headers.lookup key := by
  rw [← HashMap.find?_reverse_entries]
  show ((i.headers.entries.map fun e => Header.mk e.1 e.2).reverse.find? fun header =>
    header.key = key).map Header.value = _
  rw [← List.map_reverse, List.find?_map, Option.map_map]
  rfl

/-- A sound message says the same after `main` has converted it. -/
theorem ofReceived_receivedOf {env : SessionEnv} {i : InboundMessage}
    (hsound : F.Sound env i.forwarded) : F.ofReceived (receivedOf i) = F.ofInbound i := by
  unfold ofReceived ofInbound
  rw [contentsOf_receivedOf_headers]
  by_cases hin : F.Carries i.forwarded ∧ i.forwarded.headers.lookup "frame_type" = none
  · have hsome : F.ofOutbound i.forwarded = some (contents i.forwarded) := if_pos hin
    have hmsgId : i.msgId ≠ some 0 := (hsound.clean hsome).msgId
    have hcontents : contentsOf (receivedOf i) = contents i.forwarded := by
      unfold contentsOf contents
      rw [show (fun key => ((receivedOf i).headers.reverse.find? fun header =>
        header.key = key).map Header.value) = i.headers.lookup from
          funext (contentsOf_receivedOf_headers i)]
      have hid : (if (receivedOf i).msgId = 0 then none else some (receivedOf i).msgId)
          = i.msgId := by
        show (if i.msgId.getD 0 = 0 then none else some (i.msgId.getD 0)) = i.msgId
        cases hm : i.msgId with
        | none => rfl
        | some msgId =>
          rw [hm] at hmsgId
          exact if_neg fun hzero : msgId = 0 => hmsgId (congrArg some hzero)
      rw [hid]
      rfl
    rw [hsome, hcontents]
    exact if_pos hin
  · rw [show F.ofOutbound i.forwarded = none from if_neg hin]
    exact if_neg hin

/-- The subscription is for messages of the flow's source. -/
def Admitted (req : SubscribeRequest) : Prop := req.srcNode = 0 ∨ req.srcNode = F.src

/-- **A subscription is handed every message of the flow** that arrives. -/
theorem filterMap_keeps {env : SessionEnv} {fromSlice : Bytes → Option DeliveryStatusMessage}
    {sent : List OutboundMessage} {handed : List Handing} (hcorr : F.corrId ≠ 0)
    {req : SubscribeRequest} (hreq : F.Admitted req) {new : List InboundMessage}
    (hsound : ∀ i ∈ new, F.Sound env i.forwarded)
    (hbacked : ∀ i ∈ new, Backed fromSlice sent handed i.forwarded) :
    ((new.map receivedOf).filter (keeps F.dst (.ofRequest req))).filterMap F.ofReceived
      = new.filterMap F.ofInbound := by
  rw [List.filterMap_filter, List.filterMap_map]
  refine List.filterMap_congr fun i hi => ?_
  show (if keeps F.dst (.ofRequest req) (receivedOf i) = true then F.ofReceived (receivedOf i)
    else none) = F.ofInbound i
  rw [F.ofReceived_receivedOf (hsound i hi)]
  cases hin : F.ofInbound i with
  | none => exact ite_self _
  | some c =>
    obtain ⟨hcarries, -, -⟩ := ofOutbound_eq_some.mp hin
    have hdst : i.dstNode = F.dst := hcarries.2.1
    have happlication : incoming F.dst (receivedOf i) = .application := by
      rw [← hdst]
      rcases incoming_cases i.dstNode i with hnot | ⟨-, ⟨-, hstatus⟩ | happ⟩
      · unfold incoming at hnot
        rw [if_neg fun h => h rfl] at hnot
        split at hnot
        · exact absurd hnot (by simp)
        · exact absurd hnot (by simp)
      · exact absurd (hcarries.2.2.symm.trans ((hbacked i hi).corrId hstatus)) hcorr
      · exact happ
    have hadmits : (SubscriptionFilter.ofRequest req).admits (receivedOf i) = true := by
      have hsrc : (receivedOf i).srcNode = F.src := hcarries.1
      unfold SubscriptionFilter.admits SubscriptionFilter.ofRequest
      dsimp only
      rcases hreq with hzero | heq
      · rw [if_pos hzero]
      · by_cases hzero : req.srcNode = 0
        · rw [if_pos hzero]
        · rw [if_neg hzero, hsrc, heq]
          exact beq_self_eq_true _
    refine if_pos ?_
    unfold keeps
    rw [happlication, hadmits]
    rfl

end Flow

/-- **From a client to a subscriber.** In every run of a mesh with its data services in which
no client forges status messages, the nodes on a path keep their routes and sessions for a
flow with a correlation ID other than 0, which status messages have, and what clients send of
the flow is clean: what the destination's service took of the flow before a client subscribed
there, and then what the subscription has been handed of it, is an initial part of what the
source's service put on its channel, in that order, each message as often as it was sent and
with its contents; and all of it when nothing of the flow is under way and the service has
taken what was delivered. -/
theorem subscriber_in_order (env : SessionEnv) (F : Flow) {peer : SessionEnd → NodeId}
    (route : Route peer F.src F.dst) {toVec : DeliveryStatusMessage → Option Bytes}
    {fromSlice : Bytes → Option DeliveryStatusMessage}
    (hread : ReadsBack env.crates env.fromReader) (hjson : JsonReadsBack toVec fromSlice)
    {manager : NodeId → SessionManager} {node : NodeId → DataNode}
    (hlocal : ∀ n, (manager n).localNodeId = n) (hnode : ∀ n, FreshNode n (node n))
    (hleads : ∀ e ∈ route.hops, F.LeadsTo (manager e.1) e.2) (hcorr : F.corrId ≠ 0)
    (before after : List ServedStep) (req : SubscribeRequest) (hreq : F.Admitted req)
    (hhonest : ∀ a ∈ before ++ .event F.dst (.subscribe req) :: after, a.Honest)
    (hkeeps : ∀ a ∈ before ++ .event F.dst (.subscribe req) :: after, a.Keeps F route.hops)
    (hclean : ∀ m ∈ (ServedMesh.run env peer toVec fromSlice manager node
      (before ++ .event F.dst (.subscribe req) :: after)).sent, F.Carries m → Clean env m)
    (hspares : ∀ a ∈ after, a.Spares F.dst ((ServedMesh.run env peer toVec fromSlice manager node
      before).node F.dst).deliveryQueue.nextSubId)
    (hids : subscribesAt F.dst after < 2 ^ 64) :
    let s := ServedMesh.run env peer toVec fromSlice manager node before
    let s' := ServedMesh.run env peer toVec fromSlice manager node
      (before ++ .event F.dst (.subscribe req) :: after)
    let submitted := ((ServedMesh.start manager node).trace env peer toVec fromSlice
      (before ++ .event F.dst (.subscribe req) :: after)).filterMap F.submitted
    ∃ since, s'.handed = s.handed ++ since ∧
      (s.takenAt F.dst).filterMap F.ofInbound
          ++ (streamOf since F.dst (s.node F.dst).deliveryQueue.nextSubId).filterMap F.ofReceived
        <+: submitted ∧
      (F.Idle env route s'.mesh → s'.taken F.dst = (s'.mesh.delivered F.dst).length →
        (s.takenAt F.dst).filterMap F.ofInbound
          ++ (streamOf since F.dst (s.node F.dst).deliveryQueue.nextSubId).filterMap F.ofReceived
        = submitted) := by
  intro s s' submitted
  have hstart : (ServedMesh.start manager node).Inv env fromSlice := .start hlocal hnode
  have hs : s.Inv env fromSlice :=
    hstart.run hread hjson fun a ha => hhonest a (List.mem_append_left _ ha)
  -- the state after `subscribe`
  have hmem : ∀ a ∈ after, a ∈ before ++ .event F.dst (.subscribe req) :: after :=
    fun a ha => List.mem_append_right _ (List.mem_cons_of_mem _ ha)
  have hsubscribe : ServedStep.event F.dst (.subscribe req)
      ∈ before ++ .event F.dst (.subscribe req) :: after :=
    List.mem_append_right _ (List.mem_cons_self ..)
  have hfirst : (s.step env peer toVec fromSlice (.event F.dst (.subscribe req))).Inv env
      fromSlice := hs.step hread hjson (hhonest _ hsubscribe)
  obtain ⟨hregistered, hnew⟩ := ServedMesh.subscribe_registered env peer toVec
    fromSlice s F.dst req hids
  have hrun : after.foldl (ServedMesh.step env peer toVec fromSlice)
      (s.step env peer toVec fromSlice (.event F.dst (.subscribe req))) = s' := by
    show _ = (before ++ .event F.dst (.subscribe req) :: after).foldl
      (ServedMesh.step env peer toVec fromSlice) _
    rw [List.foldl_append]
    rfl
  obtain ⟨since, new, hhanded⟩ := ServedMesh.run_stream hread hjson hfirst hregistered
    (fun a ha => hhonest a (hmem a ha)) hspares hnew
  rw [hrun] at hhanded
  have htaken : s'.takenAt F.dst = s.takenAt F.dst ++ new := hhanded.taken
  -- the mesh below
  have hrespects : ∀ b ∈ (ServedMesh.start manager node).trace env peer toVec fromSlice
      (before ++ .event F.dst (.subscribe req) :: after), b.Respects env F route.hops :=
    ServedMesh.trace_respects hread hjson hcorr hstart hhonest hkeeps hclean
  have hmesh : s'.mesh = Mesh.run env peer manager ((ServedMesh.start manager node).trace env peer
      toVec fromSlice (before ++ .event F.dst (.subscribe req) :: after)) :=
    ServedMesh.run_mesh ..
  obtain ⟨hinv, hline⟩ : F.Inv env route _ ∧ inLine route.line _ = _ :=
    Flow.Inv.ofRun hread hlocal hleads hrespects
  have hcarried : Carried env (F.Sound env) s'.mesh := by
    rw [hmesh]
    exact (Carried.start hlocal).run (Flow.sound_survives hread) fun b hb => (hrespects b hb).adds
  rw [← hmesh] at hinv hline
  obtain ⟨hinitial, hidle, -⟩ := Flow.handed_of_line hinv
  rw [hline] at hinitial hidle
  -- what was taken has been delivered
  have hs' : s'.Inv env fromSlice := hstart.run hread hjson hhonest
  have hdelivered : ∀ i ∈ new, i ∈ s'.mesh.delivered F.dst := by
    intro i hi
    refine List.mem_of_mem_take (i := s'.taken F.dst) ?_
    show i ∈ s'.takenAt F.dst
    rw [htaken]
    exact List.mem_append_right _ hi
  have hstream : (s.takenAt F.dst).filterMap F.ofInbound
      ++ (streamOf since F.dst (s.node F.dst).deliveryQueue.nextSubId).filterMap F.ofReceived
      = (s'.takenAt F.dst).filterMap F.ofInbound := by
    rw [hhanded.stream, F.filterMap_keeps hcorr hreq
      (fun i hi => hcarried.delivered F.dst i (hdelivered i hi))
      (fun i hi => hs'.carried.delivered F.dst i (hdelivered i hi)), htaken, List.filterMap_append]
  refine ⟨since, hhanded.handed, ?_, fun hquiet hall => ?_⟩
  · rw [hstream]
    exact ((List.take_prefix ..).filterMap F.ofInbound).trans hinitial
  · rw [hstream]
    unfold ServedMesh.takenAt
    rw [hall, List.take_length]
    exact hidle hquiet

/-- A client at node 2 subscribes, and one at node 1 sends a message there. -/
def subscribedRun : List ServedStep :=
  [.event 1 (.send { requestWith [] 9 with dstNode := 2 } 0 true),
    .mesh (.handleOutbound 1), .mesh (.write (1, 0)), .mesh (.read (1, 0)),
    .mesh (.handleEvent 2), .take 2 0]

theorem subscriber_in_order_pair :
    let env : SessionEnv := { exampleEnv none with crates := .flat, fromReader := readMap }
    let peer : SessionEnd → NodeId := fun e => if e.1 = 1 then 2 else 1
    let steps := .event 2 (.subscribe ⟨0, 0, 1⟩) :: subscribedRun
    let s := ServedMesh.run env peer writeDelivered readDelivered pairManager pairNode steps
    (streamOf s.handed 2 2).map Received.payload = [[7]] ∧
      (streamOf s.handed 2 2).filterMap (Flow.ofReceived ⟨1, 2, 9⟩)
        <+: ((ServedMesh.start pairManager pairNode).trace env peer writeDelivered readDelivered
          steps).filterMap (Flow.submitted ⟨1, 2, 9⟩) := by
  intro env peer steps s
  let route : Route peer 1 2 := { hops := [(1, 0)], leads := ⟨rfl, rfl⟩, nodup := by decide }
  have hleads : ∀ e ∈ route.hops, Flow.LeadsTo ⟨1, 2, 9⟩ (pairManager e.1) e.2 := by
    intro e he
    rw [List.mem_singleton.mp he]
    exact ⟨_, RoutingTable.decide_single (by decide) (by decide : (64 : UInt8) ≠ 0)
      (AList.lookup_insert _), AList.lookup_insert _⟩
  have hfresh : ∀ n, FreshNode n (pairNode n) :=
    fun n => ⟨rfl, fun _ => rfl, fun _ => rfl, rfl⟩
  have hsent : ∀ m ∈ s.sent, (m.headers.lookup "frame_type" = none ∧
      m.headers.lookup "require_ack" = none ∧ m.msgId ≠ some 0) ∧
      (buildDataFrame .flat m).isOk = true := by
    decide +kernel
  have hclean : ∀ m ∈ s.sent, Flow.Carries ⟨1, 2, 9⟩ m → Clean env m := by
    intro m hm _
    obtain ⟨⟨hframe, hack, hmsgId⟩, hencodes⟩ := hsent m hm
    exact ⟨hframe, hack, hmsgId, exists_of_isOk hencodes⟩
  have hsteps : ∀ a ∈ steps, a.Honest ∧ a.Keeps ⟨1, 2, 9⟩ route.hops ∧ a.Spares 2 2 := by
    intro a ha
    simp only [steps, subscribedRun, List.mem_cons, List.not_mem_nil, or_false] at ha
    rcases ha with rfl | rfl | rfl | rfl | rfl | rfl | rfl
    · exact ⟨trivial, trivial, trivial⟩
    · refine ⟨?_, trivial, trivial⟩
      show SendRequest.header _ _ ≠ _
      decide
    all_goals exact ⟨trivial, trivial, trivial⟩
  obtain ⟨since, hsince, hinitial, -⟩ := subscriber_in_order env ⟨1, 2, 9⟩ route
    DeliveryRun.flat_readsBack delivered_readsBack (fun _ => rfl) hfresh hleads (by decide) []
    subscribedRun ⟨0, 0, 1⟩ (.inr rfl) (fun a ha => (hsteps a ha).1) (fun a ha => (hsteps a ha).2.1)
    hclean (fun a ha => (hsteps a (List.mem_cons_of_mem _ ha)).2.2) (by decide)
  refine ⟨by decide +kernel, ?_⟩
  have hall : s.handed = since := hsince
  rw [hall]
  exact hinitial

end MeshCore.Network
