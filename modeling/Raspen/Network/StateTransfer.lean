import Raspen.Network.Core

/-!
# State transfer

An aligning replica takes the first STATE-REPLY it gets and reads nothing of it but the
index.  What a correct replica replies is its own checkpoint, so the transferred one is
held by a correct replica as long as the reply comes from one.
-/

namespace Raspen

open Raspen.Transition

variable {S : Type}

/-- The index of the checkpoint a cue transfers. -/
def Cue.transferred : Cue → Option UInt64
  | .stateReply chkptIdx => some chkptIdx
  | _ => none

variable [KvStoreOps S]

/-- The replica's own checkpoint index has been `chkptIdx`. -/
def History.HeldCheckpoint (history : History S) (chkptIdx : UInt64) : Prop :=
  ∃ replica, history.Visits replica ∧ replica.chkptIdx = chkptIdx

/-- A replica replies with a checkpoint it holds. -/
theorem heldCheckpoint_of_stateReply {config : Config} {nodeId : NodeId} {kvStore : S}
    {history : History S} (run : LocalRun config nodeId kvStore history) {sender : NodeId}
    {chkptIdx : UInt64} {chkptHash : Hash}
    (emitted : .stateReply sender chkptIdx chkptHash ∈ history.messages) :
    history.HeldCheckpoint chkptIdx := by
  rcases run.exists_firing_of_mem_messages emitted with
    ⟨call, callMem, ⟨replica, cue⟩, fires, next, effects, performs, effect, effectMem, _, isReply⟩
  have emits := emits_of_perform performs effect effectMem
  rw [isReply] at emits
  cases cue with
  | stateRequest requester =>
      cases performs
      rw [List.mem_singleton.mp effectMem] at isReply
      cases isReply
      exact ⟨replica, .inr ⟨call, callMem, _, fires⟩, rfl⟩
  | _ => contradiction

namespace Network

/-- Some correct replica has held the checkpoint. -/
def Held (cluster : Cluster) (network : Network S) (chkptIdx : UInt64) : Prop :=
  ∃ node ∈ cluster.correct, (network node).HeldCheckpoint chkptIdx

/-- The checkpoint indices that a replica takes over when it serves the input. -/
def adopted (network : Network S) (action : NodeId × Input) : List UInt64 :=
  (fired perform action.2.stages (network action.1).replica).filterMap (·.2.transferred)

/-- A reply that is taken over names a correct replica as its sender. -/
def TrustsCorrect (cluster : Cluster) (network : Network S) (action : NodeId × Input) : Prop :=
  adopted network action ≠ [] →
    ∀ msg ∈ action.2.delivered, ∀ sender ∈ msg.sender, sender ∈ cluster.correct

instance (cluster : Cluster) (network : Network S) (action : NodeId × Input) :
    Decidable (TrustsCorrect cluster network action) :=
  inferInstanceAs (Decidable (_ → ∀ msg ∈ action.2.delivered, ∀ sender ∈ msg.sender, _))

variable {stores : NodeId → S} {network : Network S}

/-- Only a delivered STATE-REPLY is taken over. -/
theorem delivered_of_adopted {action : NodeId × Input} {chkptIdx : UInt64}
    (adopts : chkptIdx ∈ adopted network action) :
    ∃ sender chkptHash, action.2.delivered = some (.stateReply sender chkptIdx chkptHash) := by
  rcases List.mem_filterMap.mp adopts with ⟨⟨replica, cue⟩, fires, transfers⟩
  rcases exists_stage_of_mem_fired fires with ⟨stage, stageMem, listens⟩
  have guard := guard_of_listen stageMem listens
  cases cue with
  | stateReply heard =>
      cases transfers
      rcases guard with ⟨order, msg, isInput, guard⟩
      rcases (canStateReply_eq_some_iff.mp guard).2 with ⟨sender, chkptHash, rfl⟩
      exact ⟨sender, chkptHash, by rw [isInput]; rfl⟩
  | _ => contradiction

/-- In a run in which only replies of correct replicas are taken over, each transferred
checkpoint has been held by a correct replica. -/
theorem transfer_held {cluster : FastCluster} {actions : List (NodeId × Input)}
    (trusts : ∀ step ∈ trail (next cluster.toCluster) (start cluster.toCluster stores) actions,
      TrustsCorrect cluster.toCluster step.1 step.2) :
    ∀ step ∈ trail (next cluster.toCluster) (start cluster.toCluster stores) actions,
      ∀ chkptIdx ∈ adopted step.1 step.2, Held cluster.toCluster step.1 chkptIdx := by
  rintro ⟨network, action⟩ stepMem chkptIdx adopts
  rcases mem_trail_iff.mp stepMem with ⟨before, _, _, run, later, taken⟩
  obtain ⟨_, admitted, _⟩ := next_eq_some_iff.mp taken
  obtain ⟨sender, chkptHash, delivered⟩ := delivered_of_adopted adopts
  have correct : sender ∈ cluster.correct :=
    trusts _ stepMem (List.ne_nil_of_mem adopts) _ delivered sender rfl
  have emitted := ((admitted _ delivered) sender rfl).2 correct
  have reached : Run cluster.toCluster stores network := reachable_of_execute run
  exact ⟨sender, correct, heldCheckpoint_of_stateReply (reached.localRun sender) emitted⟩

section FourNodes

attribute [local instance] plainHasher

/-- The Byzantine replica sends an otherwise idle one two CHECKPOINTs, and it aligns. -/
def aligningActions : List (NodeId × Input) :=
  [deliver (.checkpoint "r0" 0 0 (Hash.fill 1)) "r1",
    deliver (.checkpoint "r0" 0 0 (Hash.fill 2)) "r1"]

def aligningNetwork : Network MemKvStore :=
  (execute (next fourNodes) (start fourNodes fun _ => MemKvStore.new) aligningActions).get
    (by decide +kernel)

theorem execute_aligningActions : execute (next fourNodes)
    (start fourNodes fun _ => MemKvStore.new) aligningActions = some aligningNetwork :=
  (Option.some_get _).symm

/-- Then it replies with a checkpoint of its own making. -/
def forgedReply : NodeId × Input :=
  deliver (.stateReply "r0" 7 (Hash.fill 1)) "r1"

/-- Nobody has held the checkpoint that is taken over. -/
theorem transfer_forged :
    ¬∀ actions : List (NodeId × Input),
      ∀ step ∈ trail (next fastFourNodes.toCluster)
        (start fastFourNodes.toCluster fun _ => MemKvStore.new) actions,
      ∀ chkptIdx ∈ adopted step.1 step.2, Held fastFourNodes.toCluster step.1 chkptIdx := by
  intro held
  have taken : (next fourNodes aligningNetwork forgedReply).isSome = true := by
    decide +kernel
  have stepMem : (aligningNetwork, forgedReply) ∈ trail (next fourNodes)
      (start fourNodes fun _ => MemKvStore.new) (aligningActions ++ [forgedReply]) :=
    mem_trail_iff.mpr ⟨aligningActions, [], rfl, execute_aligningActions,
      Option.isSome_iff_exists.mp taken⟩
  have adopts : 7 ∈ adopted aligningNetwork forgedReply := by
    decide +kernel
  rcases held _ _ stepMem 7 adopts with ⟨node, nodeMem, replica, visits, index⟩
  have never : ∀ node ∈ fourNodes.correct, (aligningNetwork node).replica.chkptIdx ≠ 7 ∧
      ∀ call ∈ (aligningNetwork node).calls, ∀ firing ∈ call.cues, firing.1.chkptIdx ≠ 7 := by
    decide +kernel
  rcases visits with rfl | ⟨call, callMem, cue, fires⟩
  · exact (never node nodeMem).1 index
  · exact (never node nodeMem).2 call callMem _ fires index

/-- A correct replica answers the request. -/
def transferActions : List (NodeId × Input) :=
  aligningActions ++
    [deliver (.stateRequest "r1" 0) "r2", deliver (.stateReply "r2" 0 Hash.zero) "r1"]

theorem transfer_held_fourNodes :
    (∃ step ∈ trail (next fourNodes) (start fourNodes fun _ => MemKvStore.new) transferActions,
      0 ∈ adopted step.1 step.2) ∧
    ∀ step ∈ trail (next fastFourNodes.toCluster)
      (start fastFourNodes.toCluster fun _ => MemKvStore.new) transferActions,
      ∀ chkptIdx ∈ adopted step.1 step.2, Held fastFourNodes.toCluster step.1 chkptIdx := by
  constructor
  · decide +kernel
  · exact transfer_held (by decide +kernel)

end FourNodes

end Network

end Raspen
