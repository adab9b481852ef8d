import Raspen.Consensus.History
import Raspen.Consensus.Inbox
import Raspen.Quorum.Agreement
import Mathlib.Logic.Function.Basic
import Mathlib.Data.Finset.Dedup

/-!
# Runs of a cluster

Every correct replica serves its own inputs, in any interleaving.  A message may
arrive late, repeatedly, out of order or never; the channel only guarantees that
a message naming a correct replica was emitted by it.  Messages that name a
Byzantine replica are unconstrained, and so are the sequencer's messages and the
anonymous proofs.
-/

namespace Raspen

open Raspen.Transition Raspen.Quorum

/-- A configuration with distinct node ids, the quorum sizes of the protocol and
enough replicas for its faults. -/
structure Cluster where
  config : Config
  byzantine : Finset NodeId
  nodup : config.nodesOrdered.Nodup
  length_eq : config.nodesOrdered.length = config.n
  byzQuorum_eq : config.byzQuorum = config.n - config.f
  resilient : 3 * config.f + 1 ≤ config.n
  byzantine_subset : byzantine ⊆ config.nodesOrdered.toFinset
  byzantine_le : byzantine.card ≤ config.f

namespace Cluster

/-- The replica ids. -/
def members (cluster : Cluster) : Finset NodeId :=
  cluster.config.nodesOrdered.toFinset

/-- The replicas that run the protocol. -/
def correct (cluster : Cluster) : Finset NodeId :=
  cluster.members \ cluster.byzantine

theorem card_members (cluster : Cluster) : cluster.members.card = cluster.config.n := by
  rw [members, List.toFinset_card_of_nodup cluster.nodup, cluster.length_eq]

/-- Its `byz_quorum` makes the cluster a fault model. -/
def faultModel (cluster : Cluster) : FaultModel NodeId where
  members := cluster.members
  byzantine := cluster.byzantine
  faultBound := cluster.config.f
  quorum := cluster.config.byzQuorum
  byzantine_subset := cluster.byzantine_subset
  byzantine_le := cluster.byzantine_le
  intersects := by
    have := cluster.card_members
    have := cluster.byzQuorum_eq
    have := cluster.resilient
    omega

end Cluster

/-- A cluster whose fast quorums of `n - p` replicas intersect as well. -/
structure FastCluster extends Cluster where
  fastQuorum_eq : config.fastQuorum = config.n - config.p
  fastResilient : 3 * config.f + 2 * config.p + 1 ≤ config.n

/-- Its `fast_quorum` makes the cluster a fault model, too. -/
def FastCluster.fastModel (cluster : FastCluster) : FaultModel NodeId where
  members := cluster.members
  byzantine := cluster.byzantine
  faultBound := cluster.config.f
  quorum := cluster.config.fastQuorum
  byzantine_subset := cluster.byzantine_subset
  byzantine_le := cluster.byzantine_le
  intersects := by
    have := cluster.card_members
    have := cluster.fastQuorum_eq
    have := cluster.fastResilient
    omega

/-- The histories of all replicas. -/
abbrev Network (S : Type) := NodeId → History S

namespace Network

variable {S : Type}

/-- Every replica has just been created. -/
def start (cluster : Cluster) (stores : NodeId → S) : Network S :=
  fun node => .start cluster.config node (stores node)

/-- A message with a sender names a member, and a correct member only when that
member has emitted it. -/
def Authentic (cluster : Cluster) (network : Network S) (msg : Message) : Prop :=
  ∀ node ∈ msg.sender, node ∈ cluster.members ∧
    (node ∈ cluster.correct → msg ∈ (network node).messages)

instance (cluster : Cluster) (network : Network S) (msg : Message) :
    Decidable (Authentic cluster network msg) :=
  inferInstanceAs (Decidable (∀ node ∈ msg.sender, _))

variable [KvStoreOps S]

/-! ## Runs over any channel -/

/-- One correct replica serves an input, wherever that comes from. -/
def serve (correct : Finset NodeId) (network : Network S) (action : NodeId × Input) :
    Option (Network S) :=
  if action.1 ∈ correct then
    ((network action.1).next action.2).map (Function.update network action.1)
  else none

theorem serve_eq_some_iff {correct : Finset NodeId} {network later : Network S}
    {action : NodeId × Input} :
    serve correct network action = some later ↔
      action.1 ∈ correct ∧ ∃ history, (network action.1).next action.2 = some history ∧
        later = Function.update network action.1 history := by
  simp only [serve, Option.ite_none_right_eq_some, Option.map_eq_some_iff, eq_comm (a := later)]

/-- `network` is reached from fresh replicas by any interleaving of any inputs. -/
def OpenRun (config : Config) (correct : Finset NodeId) (stores : NodeId → S)
    (network : Network S) : Prop :=
  Reachable (serve correct) (fun node => .start config node (stores node)) network

/-- Each replica of a run makes a run of its own. -/
theorem OpenRun.localRun {config : Config} {correct : Finset NodeId} {stores : NodeId → S}
    {network : Network S} (run : OpenRun config correct stores network) (node : NodeId) :
    LocalRun config node (stores node) (network node) := by
  apply run.invariant (P := fun network =>
    LocalRun config node (stores node) (network node))
  · exact Reachable.refl
  · intro earlier later action _ holds steps
    rcases serve_eq_some_iff.mp steps with ⟨_, history, served, rfl⟩
    by_cases same : node = action.1
    · subst same
      rw [Function.update_self]
      exact holds.tail served
    · rw [Function.update_of_ne same]
      exact holds

/-! ## Runs over authenticated channels -/

/-- One correct replica serves one input. -/
def next (cluster : Cluster) (network : Network S) (action : NodeId × Input) :
    Option (Network S) :=
  if action.1 ∈ cluster.correct ∧
      ∀ msg ∈ action.2.delivered, Authentic cluster network msg then
    ((network action.1).next action.2).map (Function.update network action.1)
  else none

theorem next_eq_some_iff {cluster : Cluster} {network later : Network S}
    {action : NodeId × Input} :
    next cluster network action = some later ↔
      action.1 ∈ cluster.correct ∧ (∀ msg ∈ action.2.delivered, Authentic cluster network msg) ∧
        ∃ history, (network action.1).next action.2 = some history ∧
          later = Function.update network action.1 history := by
  simp only [next, Option.ite_none_right_eq_some, Option.map_eq_some_iff, and_assoc,
    eq_comm (a := later)]

/-- `network` is a run of the cluster over the given initial stores. -/
def Run (cluster : Cluster) (stores : NodeId → S) (network : Network S) : Prop :=
  Reachable (next cluster) (start cluster stores) network

namespace Run

variable {cluster : Cluster} {stores : NodeId → S} {network : Network S}

/-- An authenticated channel is one of the possible ones. -/
theorem openRun (run : Run cluster stores network) :
    OpenRun cluster.config cluster.correct stores network := by
  apply run.invariant (P := OpenRun cluster.config cluster.correct stores) Reachable.refl
  intro earlier later action _ holds steps
  rcases next_eq_some_iff.mp steps with ⟨isCorrect, _, history, served, rfl⟩
  exact holds.tail (serve_eq_some_iff.mpr ⟨isCorrect, history, served, rfl⟩)

theorem localRun (run : Run cluster stores network) (node : NodeId) :
    LocalRun cluster.config node (stores node) (network node) :=
  run.openRun.localRun node

end Run

/-- Emitted messages stay emitted. -/
theorem messages_subset_of_next {cluster : Cluster} {network later : Network S}
    {action : NodeId × Input} (steps : next cluster network action = some later)
    (node : NodeId) : (network node).messages ⊆ (later node).messages := by
  rcases next_eq_some_iff.mp steps with ⟨_, _, history, served, rfl⟩
  by_cases same : node = action.1
  · subst same
    rw [Function.update_self]
    rcases History.next_eq_some_iff.mp served with ⟨post, effects, _, rfl⟩
    intro msg msgMem
    simp only [History.messages, History.effects, List.flatMap_append, List.map_append]
    exact List.mem_append_left _ msgMem
  · rw [Function.update_of_ne same]
    exact List.Subset.refl _

theorem Authentic.of_next {cluster : Cluster} {network later : Network S}
    {action : NodeId × Input} {msg : Message} (authentic : Authentic cluster network msg)
    (steps : next cluster network action = some later) : Authentic cluster later msg := by
  intro node nodeSends
  obtain ⟨member, emitted⟩ := authentic node nodeSends
  exact ⟨member, fun correct => messages_subset_of_next steps node (emitted correct)⟩

/-- What a replica holds after a call it held before, or the call delivered it. -/
theorem stores_of_step {input : Input} {replica post : Replica S} {effects : List Effect}
    {msg : Message} (steps : step replica input = some (post, effects))
    (stored : post.Stores msg) : input.delivered = some msg ∨ replica.Stores msg := by
  have moves := moves_of_step steps
  clear steps
  induction moves with
  | refl => exact .inr stored
  | tail _ last ih =>
      rcases stores_of_move last stored with ⟨order, rfl⟩ | old
      · exact .inl rfl
      · exact ih old

/-- In every run, each message a correct replica has stored is authentic. -/
theorem Run.authentic_of_stores {cluster : Cluster} {stores : NodeId → S} {network : Network S}
    (run : Run cluster stores network) (node : NodeId) {msg : Message}
    (stored : (network node).replica.Stores msg) : Authentic cluster network msg := by
  revert node
  apply run.invariant (P := fun network => ∀ node : NodeId,
    (network node).replica.Stores msg → Authentic cluster network msg)
  · intro node stored
    exact absurd stored (not_stores_new _ _ _ _)
  · intro earlier later action _ holds steps node stored
    rcases next_eq_some_iff.mp steps with ⟨_, admitted, history, served, rfl⟩
    by_cases same : node = action.1
    · subst same
      rw [Function.update_self] at stored
      rcases History.next_eq_some_iff.mp served with ⟨post, effects, performed, rfl⟩
      rcases stores_of_step performed stored with delivered | old
      · exact (admitted msg delivered).of_next steps
      · exact (holds _ old).of_next steps
    · rw [Function.update_of_ne same] at stored
      exact (holds _ stored).of_next steps

end Network

/-! ## A cluster of four -/

/-- Four replicas, of which the leader of view 0 is Byzantine. -/
def fourNodes : Cluster where
  config := Config.forTest 4 1 0
  byzantine := {"r0"}
  nodup := by decide
  length_eq := rfl
  byzQuorum_eq := rfl
  resilient := by decide
  byzantine_subset := by decide
  byzantine_le := by decide

/-- The same four replicas on the fast path, with `p = 0`. -/
def fastFourNodes : FastCluster where
  toCluster := fourNodes
  fastQuorum_eq := rfl
  fastResilient := by decide

/-- Deliver `msg` to `node`. -/
def deliver (msg : Message) (node : NodeId) : NodeId × Input :=
  (node, .message .greatest msg)

section FourNodes

attribute [local instance] plainHasher

/-- The Byzantine leader proposes one history to two replicas and helps them to
a prepare quorum. -/
def lockingActions : List (NodeId × Input) :=
  ["r1", "r2"].map (deliver (.conflictProof 0 0)) ++
    ["r1", "r2"].map (deliver (.repairHistory "r0" 0 0 1)) ++
    ["r0", "r1", "r2"].flatMap fun voter =>
      ["r1", "r2"].map (deliver (.repairPrepare voter 0 0 1))

def lockedNetwork : Network MemKvStore :=
  (execute (Network.next fourNodes) (Network.start fourNodes fun _ => MemKvStore.new)
    lockingActions).get (by decide +kernel)

theorem run_lockedNetwork : Network.Run fourNodes (fun _ => MemKvStore.new) lockedNetwork :=
  reachable_of_execute (Option.some_get _).symm

/-- The commit votes that follow. -/
def committingActions : List (NodeId × Input) :=
  ["r0", "r1", "r2"].flatMap fun voter =>
    ["r1", "r2"].map (deliver (.repairCommit voter 0 0 1))

def appliedNetwork : Network MemKvStore :=
  (execute (Network.next fourNodes) lockedNetwork committingActions).get (by decide +kernel)

theorem run_appliedNetwork : Network.Run fourNodes (fun _ => MemKvStore.new) appliedNetwork :=
  run_lockedNetwork.trans (reachable_of_execute (Option.some_get _).symm)

end FourNodes

end Raspen
