import Raspen.Consensus.Applied
import Raspen.Network.Core
import Mathlib.Algebra.BigOperators.Group.Finset.Basic

/-!
# The proposals of a round

Only the leader of a view proposes in it, and it collects LOGs once in a round.  This
needs nothing of the channel: the correct replicas may be handed any messages at all.
-/

namespace Raspen

open Raspen.Transition

variable {S : Type} [KvStoreOps S] {config : Config} {nodeId : NodeId} {kvStore : S}
  {history : History S}

/-- The effect sends a REPAIR-HISTORY for `(view, round)`. -/
def Effect.proposesIn (view round : UInt64) (effect : Effect) : Bool :=
  effect.message.isRepairHistoryAt view round

/-- Behind an emitted proposal stands the leader, with the LOGs it has counted. -/
theorem exists_proposal_of_emitted (run : LocalRun config nodeId kvStore history)
    {sender : NodeId} {view round historyHash : UInt64}
    (emitted : .repairHistory sender view round historyHash ∈ history.messages) :
    sender = nodeId ∧ config.leader view = some nodeId ∧
      ∃ call ∈ history.calls, ∃ replica : Replica S,
        (replica, .broadcastHistory historyHash) ∈ call.cues ∧
        historyHash = UInt64.ofNat
          (senders (Message.isLogMsgAt view round) replica.logMsgs).card ∧
        config.byzQuorum ≤ (senders (Message.isLogMsgAt view round) replica.logMsgs).card := by
  rcases run.exists_firing_of_mem_messages emitted with
    ⟨call, callMem, ⟨replica, cue⟩, fires, next, effects, performs, effect, effectMem, _, isHistory⟩
  have emits := emits_of_perform performs effect effectMem
  rw [isHistory] at emits
  cases cue with
  | broadcastHistory proposed =>
      have guard : canBroadcastHistory replica = some proposed := Call.guard_of_mem_cues fires
      obtain ⟨_, leads, quorum, counted⟩ := canBroadcastHistory_eq_some_iff.mp guard
      have visits : history.Visits replica := .inr ⟨call, callMem, _, fires⟩
      have nodeId_eq := nodeId_of_visits run visits
      have config_eq := config_of_visits run visits
      cases performs
      rw [List.mem_singleton.mp effectMem] at isHistory
      cases isHistory
      rw [Replica.isLeader_iff, config_eq, nodeId_eq] at leads
      rw [logSenders_eq_senders] at quorum counted
      rw [config_eq] at quorum
      exact ⟨nodeId_eq, leads, call, callMem, replica, fires, counted, quorum⟩
  | _ => contradiction

/-- A replica proposes once in a round. -/
theorem countP_proposesIn_le_one (run : LocalRun config nodeId kvStore history)
    (view round : UInt64) : history.effects.countP (Effect.proposesIn view round) ≤ 1 := by
  have sameSlot : ∀ effect, Effect.proposesIn view round effect = true →
      historySlot effect = some round := by
    intro effect proposes
    apply historySlot_eq_some_iff.mpr
    obtain ⟨sender, historyHash, isHistory⟩ := Message.isRepairHistoryAt_iff.mp proposes
    exact ⟨sender, view, historyHash, isHistory⟩
  exact (emitted_of_localRun run).once.history.countP_le_one sameSlot

namespace Network

variable {correct : Finset NodeId} {stores : NodeId → S} {network : Network S}

/-- The correct replicas together propose at most once in each view and round.  The
proposal comes from the leader of the view and names the number of LOG senders it has
counted, a quorum of them. -/
theorem one_proposal (run : OpenRun config correct stores network) (view round : UInt64) :
    ∑ node ∈ correct, (network node).effects.countP (Effect.proposesIn view round) ≤ 1 ∧
      ∀ node ∈ correct, ∀ sender historyHash,
        .repairHistory sender view round historyHash ∈ (network node).messages →
        config.leader view = some sender ∧
        ∃ call ∈ (network node).calls, ∃ replica : Replica S,
          (replica, .broadcastHistory historyHash) ∈ call.cues ∧
          historyHash = UInt64.ofNat
            (senders (Message.isLogMsgAt view round) replica.logMsgs).card ∧
          config.byzQuorum ≤ (senders (Message.isLogMsgAt view round) replica.logMsgs).card := by
  have silent : ∀ node ∈ correct, config.leader view ≠ some node →
      (network node).effects.countP (Effect.proposesIn view round) = 0 := by
    intro node _ other
    rw [List.countP_eq_zero]
    intro effect effectMem proposes
    obtain ⟨sender, historyHash, isHistory⟩ := Message.isRepairHistoryAt_iff.mp proposes
    have emitted : .repairHistory sender view round historyHash ∈ (network node).messages :=
      List.mem_map.mpr ⟨effect, effectMem, isHistory⟩
    exact other (exists_proposal_of_emitted (run.localRun node) emitted).2.1
  constructor
  · by_cases present : ∃ leader ∈ correct, config.leader view = some leader
    · rcases present with ⟨leader, leaderMem, leads⟩
      have others : ∀ node ∈ correct, node ≠ leader →
          (network node).effects.countP (Effect.proposesIn view round) = 0 := by
        intro node nodeMem other
        apply silent node nodeMem
        rw [leads]
        exact fun same => other (Option.some.inj same).symm
      rw [Finset.sum_eq_single_of_mem leader leaderMem others]
      exact countP_proposesIn_le_one (run.localRun leader) view round
    · have none : ∀ node ∈ correct,
          (network node).effects.countP (Effect.proposesIn view round) = 0 :=
        fun node nodeMem => silent node nodeMem fun leads => present ⟨node, nodeMem, leads⟩
      rw [Finset.sum_eq_zero none]
      exact Nat.zero_le 1
  · intro node _ sender historyHash emitted
    obtain ⟨rfl, leads, proposal⟩ := exists_proposal_of_emitted (run.localRun node) emitted
    exact ⟨leads, proposal⟩

section Proposed

attribute [local instance] plainHasher

/-- The leader of view 0 hears three LOGs, and another replica hears them, too. -/
def proposingActions : List (NodeId × Input) :=
  ["r0", "r1"].map (deliver (.conflictProof 0 0)) ++
    ["r1", "r2", "r3"].flatMap fun sender =>
      ["r0", "r1"].map (deliver (.logMsg sender 0 0 Hash.zero))

def proposedNetwork : Network MemKvStore :=
  (execute (serve {"r0", "r1"})
    (fun node => .start (Config.forTest 4 1 0) node MemKvStore.new) proposingActions).get
      (by decide +kernel)

theorem openRun_proposedNetwork :
    OpenRun (Config.forTest 4 1 0) {"r0", "r1"} (fun _ => MemKvStore.new) proposedNetwork :=
  reachable_of_execute (Option.some_get _).symm

theorem one_proposal_proposed :
    .repairHistory "r0" 0 0 3 ∈ (proposedNetwork "r0").messages ∧
      ∑ node ∈ {"r0", "r1"},
        (proposedNetwork node).effects.countP (Effect.proposesIn 0 0) ≤ 1 := by
  constructor
  · decide +kernel
  · exact (one_proposal openRun_proposedNetwork 0 0).1

end Proposed

end Network

end Raspen
