import Raspen.Network.Repair
import Raspen.Node.Core
import Raspen.Transition.Refinement

/-!
# A cluster of nodes

Each correct replica runs behind a node.  An input is checked when it is submitted, not when
the actor gets to it, and in between it waits.  To the protocol this is one more delay: the
nodes refine the cluster of replicas, so agreement holds of what their transports are told
to put on the network.
-/

namespace Raspen

open Raspen.Transition Raspen.Quorum

/-- What a node's transport has put on the network. -/
def Node.sent {C M : Type} (node : Node C M RecordingTransport) : List Message :=
  node.worker.state.2.effects.map Effect.message

/-- The nodes of all replicas. -/
abbrev NodeNetwork (C S : Type) := NodeId → Node C (Replica S) RecordingTransport

namespace NodeNetwork

variable {C S : Type}

/-- A message with a sender names a member, and a correct member only when its transport
has sent it. -/
def Admits (cluster : Cluster) (nodes : NodeNetwork C S) : ReplicaInput → Prop
  | .message msg => ∀ sender ∈ msg.sender, sender ∈ cluster.members ∧
      (sender ∈ cluster.correct → msg ∈ (nodes sender).sent)
  | .event _ => True

instance (cluster : Cluster) (nodes : NodeNetwork C S) (input : ReplicaInput) :
    Decidable (Admits cluster nodes input) :=
  match input with
  | .message msg => inferInstanceAs (Decidable (∀ sender ∈ msg.sender, _))
  | .event _ => inferInstanceAs (Decidable True)

variable [Mpsc C ReplicaInput] [KvStoreOps S]

/-- One step of the actor of a correct node, or of those who submit to it. -/
def next (cluster : Cluster) (nodes : NodeNetwork C S)
    (action : NodeId × ServiceStep ReplicaInput HashOrder) : Option (NodeNetwork C S) :=
  if action.1 ∈ cluster.correct ∧ ∀ input ∈ action.2.accepted, Admits cluster nodes input then
    ((nodes action.1).next action.2).map (Function.update nodes action.1)
  else none

theorem next_eq_some_iff {cluster : Cluster} {nodes later : NodeNetwork C S}
    {action : NodeId × ServiceStep ReplicaInput HashOrder} :
    next cluster nodes action = some later ↔
      action.1 ∈ cluster.correct ∧ (∀ input ∈ action.2.accepted, Admits cluster nodes input) ∧
        ∃ node, (nodes action.1).next action.2 = some node ∧
          later = Function.update nodes action.1 node := by
  simp only [next, Option.ite_none_right_eq_some, Option.map_eq_some_iff, and_assoc,
    eq_comm (a := later)]

/-- Every correct node has just been started over a fresh replica. -/
def Starts (cluster : Cluster) (stores : NodeId → S) (capacity : NodeId → Nat)
    (nodes : NodeNetwork C S) : Prop :=
  ∀ node ∈ cluster.correct,
    Node.start (Replica.new cluster.config node (stores node)) ⟨[]⟩ (capacity node) =
      some (nodes node)

/-- `nodes` is a run of the nodes of the cluster. -/
def Run (cluster : Cluster) (stores : NodeId → S) (capacity : NodeId → Nat)
    (nodes : NodeNetwork C S) : Prop :=
  ∃ first, Starts cluster stores capacity first ∧ Reachable (next cluster) first nodes

/-- The replica behind each correct node is where the history says, its transport has sent
what the replica emitted, and what has not been processed is authentic. -/
structure Reflects (cluster : Cluster) (nodes : NodeNetwork C S) (network : Network S) :
    Prop where
  replica : ∀ node ∈ cluster.correct,
    (nodes node).worker.state = ((network node).replica, ⟨(network node).effects⟩)
  authentic : ∀ node ∈ cluster.correct, ∀ msg, .message msg ∈ (nodes node).pending →
    Network.Authentic cluster network msg

/-- What the actor does with an input, its replica does. -/
theorem next_of_handle {history : History S} {input : ReplicaInput} {order : HashOrder}
    {state : Replica S × RecordingTransport}
    (handled : Node.handle (history.replica, ⟨history.effects⟩) (input, order) = some state) :
    ∃ later, history.next (input.seen order) = some later ∧
      state = (later.replica, ⟨later.effects⟩) := by
  rcases Option.map_eq_some_iff.mp handled with ⟨⟨post, effects⟩, fed, rfl⟩
  have steps : step history.replica (input.seen order) = some (post, effects) := by
    cases input <;> exact fed
  refine ⟨_, History.next_eq_some_iff.mpr ⟨post, effects, steps, rfl⟩, ?_⟩
  simp only [History.effects, List.flatMap_append, List.flatMap_singleton]
  cases effects with
  | nil => simp
  | cons first rest => rfl

variable {cluster : Cluster} {stores : NodeId → S} {capacity : NodeId → Nat}

omit [KvStoreOps S] in
theorem Reflects.of_starts {first : NodeNetwork C S}
    (starts : Starts cluster stores capacity first) :
    Reflects cluster first (Network.start cluster stores) := by
  constructor
  · intro node isCorrect
    rw [(Node.isNew_of_start (starts node isCorrect)).worker_eq]
    rfl
  · intro node isCorrect msg msgMem
    have isNew := Node.isNew_of_start (starts node isCorrect)
    simp [Service.pending, isNew.worker_eq, isNew.view_eq, Worker.held] at msgMem

section Steps

variable {nodes : NodeNetwork C S} {network : Network S} {id : NodeId}
  {node : Node C (Replica S) RecordingTransport}

omit [Mpsc C ReplicaInput] [KvStoreOps S] in
/-- What is admitted to the nodes is authentic to the replicas. -/
theorem authentic_of_admits
    (sameState : ∀ node ∈ cluster.correct,
      (nodes node).worker.state = ((network node).replica, ⟨(network node).effects⟩))
    {msg : Message} (admits : Admits cluster nodes (.message msg)) :
    Network.Authentic cluster network msg := by
  intro sender sends
  obtain ⟨member, sent⟩ := admits sender sends
  refine ⟨member, fun isCorrect => ?_⟩
  have inLog := sent isCorrect
  rw [Node.sent, sameState sender isCorrect] at inLog
  exact inLog

omit [KvStoreOps S] in
/-- A node that only accepts or hands on an input still reflects its replica. -/
theorem Reflects.of_sameState (reflects : Reflects cluster nodes network)
    (isCorrect : id ∈ cluster.correct) {input : Option ReplicaInput}
    (admitted : ∀ accepted ∈ input, Admits cluster nodes accepted)
    (sameState : node.worker.state = (nodes id).worker.state)
    (moved : node.pending = (nodes id).pending ++ input.toList) :
    Reflects cluster (Function.update nodes id node) network := by
  constructor
  · intro other otherCorrect
    by_cases same : other = id
    · subst same
      rw [Function.update_self, sameState]
      exact reflects.replica other otherCorrect
    · rw [Function.update_of_ne same]
      exact reflects.replica other otherCorrect
  · intro other otherCorrect msg msgMem
    by_cases same : other = id
    · subst same
      rw [Function.update_self, moved] at msgMem
      rcases List.mem_append.mp msgMem with old | new
      · exact reflects.authentic other otherCorrect msg old
      · exact authentic_of_admits reflects.replica (admitted _ (Option.mem_toList.mp new))
    · rw [Function.update_of_ne same] at msgMem
      exact reflects.authentic other otherCorrect msg msgMem

/-- A node that serves an input reflects its replica after the step. -/
theorem Reflects.of_serves (reflects : Reflects cluster nodes network)
    (isCorrect : id ∈ cluster.correct) {input : ReplicaInput} {order : HashOrder}
    (serves : Node.handle (nodes id).worker.state (input, order) = some node.worker.state)
    (first : (nodes id).pending = input :: node.pending) :
    ∃ later, Network.next cluster network (id, input.seen order) = some later ∧
      Reflects cluster (Function.update nodes id node) later := by
  rw [reflects.replica id isCorrect] at serves
  obtain ⟨history, served, state_eq⟩ := next_of_handle serves
  have delivered : ∀ msg ∈ (input.seen order).delivered,
      Network.Authentic cluster network msg := by
    intro msg isDelivered
    apply reflects.authentic id isCorrect
    rw [first]
    cases input with
    | message other =>
        cases isDelivered
        exact List.mem_cons_self
    | event timer => contradiction
  have steps : Network.next cluster network (id, input.seen order) =
      some (Function.update network id history) :=
    Network.next_eq_some_iff.mpr ⟨isCorrect, delivered, history, served, rfl⟩
  refine ⟨_, steps, ?_⟩
  constructor
  · intro other otherCorrect
    by_cases same : other = id
    · subst same
      rw [Function.update_self, Function.update_self]
      exact state_eq
    · rw [Function.update_of_ne same, Function.update_of_ne same]
      exact reflects.replica other otherCorrect
  · intro other otherCorrect msg msgMem
    apply Network.Authentic.of_next _ steps
    by_cases same : other = id
    · subst same
      rw [Function.update_self] at msgMem
      apply reflects.authentic other otherCorrect
      rw [first]
      exact List.mem_cons_of_mem _ msgMem
    · rw [Function.update_of_ne same] at msgMem
      exact reflects.authentic other otherCorrect msg msgMem

end Steps

/-- The nodes refine the replicas: an input that the actor serves is a step of its replica,
and everything else happens to the nodes alone. -/
theorem simulation {first : NodeNetwork C S} (starts : Starts cluster stores capacity first) :
    Simulation (next cluster) first (Network.next cluster) (Network.start cluster stores)
      (Reflects cluster) where
  starts := .of_starts starts
  step := by
    intro nodes later network action _ reflects taken
    rcases next_eq_some_iff.mp taken with ⟨isCorrect, admitted, node, steps, rfl⟩
    rcases Service.step_cases steps with ⟨sameState, moved⟩ | ⟨input, order, serves, first, _⟩
    · exact ⟨network, .refl, reflects.of_sameState isCorrect admitted sameState moved⟩
    · obtain ⟨later, replicaSteps, reflectsLater⟩ := reflects.of_serves isCorrect serves first
      exact ⟨later, Reachable.refl.tail replicaSteps, reflectsLater⟩

theorem exists_network {nodes : NodeNetwork C S} (run : Run cluster stores capacity nodes) :
    ∃ network, Network.Run cluster stores network ∧ Reflects cluster nodes network := by
  obtain ⟨first, starts, reached⟩ := run
  have simulates := simulation starts
  exact simulates.exists_reachable .refl simulates.starts reached

/-! ## What the transports are told -/

/-- Every run of the nodes is a run of the replicas behind them, and all REPAIR-DONE messages
that the transports of correct nodes put on the network for one round carry the same
history. -/
theorem nodes_agree {nodes : NodeNetwork C S} (run : Run cluster stores capacity nodes) :
    (∃ network, Network.Run cluster stores network ∧ ∀ node ∈ cluster.correct,
      (nodes node).worker.state = ((network node).replica, ⟨(network node).effects⟩)) ∧
    ∀ first ∈ cluster.correct, ∀ second ∈ cluster.correct,
      ∀ sender sender' view view' round historyHash historyHash',
        .repairDone sender view round historyHash ∈ (nodes first).sent →
        .repairDone sender' view' round historyHash' ∈ (nodes second).sent →
        historyHash = historyHash' := by
  obtain ⟨network, replicasRun, reflects⟩ := exists_network run
  constructor
  · exact ⟨network, replicasRun, reflects.replica⟩
  · intro first firstCorrect second secondCorrect sender sender' view view' round historyHash
      historyHash' sent sent'
    rw [Node.sent, reflects.replica first firstCorrect] at sent
    rw [Node.sent, reflects.replica second secondCorrect] at sent'
    have same := FaultModel.certified_unique (committed_unique replicasRun)
      (certified_of_done replicasRun sent) (certified_of_done replicasRun sent')
    exact (Prod.mk.inj same).2

/-! ## Four nodes -/

section FourNodes

attribute [local instance] plainHasher

/-- Every node of the cluster, with one slot. -/
def firstNodes : NodeNetwork (Fifo ReplicaInput) MemKvStore :=
  fun node =>
    { channel := { queue := [], capacity := 1, senders := 1, isOpen := true }
      worker := .idle (Replica.new fourNodes.config node MemKvStore.new, ⟨[]⟩) }

/-- The node gets the message, and its actor serves it. -/
def handOver : NodeId × Input → List (NodeId × ServiceStep ReplicaInput HashOrder)
  | (node, .message order msg) =>
      [(node, .submit (.message msg)), (node, .receive), (node, .work order)]
  | (node, .event timer) =>
      [(node, .submit (.event timer)), (node, .receive), (node, .work .greatest)]

def appliedNodes : NodeNetwork (Fifo ReplicaInput) MemKvStore :=
  (execute (next fourNodes) firstNodes
    ((lockingActions ++ committingActions).flatMap handOver)).get (by decide +kernel)

theorem run_appliedNodes :
    Run fourNodes (fun _ => MemKvStore.new) (fun _ => 1) appliedNodes :=
  ⟨firstNodes, fun _ _ => rfl, reachable_of_execute (Option.some_get _).symm⟩

theorem nodes_agree_fourNodes :
    Message.repairDone "r1" 0 0 1 ∈ (appliedNodes "r1").sent ∧
      ∀ sender view historyHash, .repairDone sender view 0 historyHash ∈ (appliedNodes "r2").sent →
        historyHash = 1 := by
  have isCorrect : "r1" ∈ fourNodes.correct ∧ "r2" ∈ fourNodes.correct := by decide
  have sent : Message.repairDone "r1" 0 0 1 ∈ (appliedNodes "r1").sent := by decide +kernel
  constructor
  · exact sent
  · intro sender view historyHash sent'
    exact (nodes_agree run_appliedNodes).2 "r2" isCorrect.2 "r1" isCorrect.1 _ _ _ _ _ _ _
      sent' sent

end FourNodes

end NodeNetwork

end Raspen
