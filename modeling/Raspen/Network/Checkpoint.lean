import Raspen.Consensus.CheckpointSource
import Raspen.Network.Core

/-!
# Agreement on checkpoints

A SYNC quorum records the top hash of the replica's own log, while state
transfer records the hash of a synthetic entry.  Replicas that record a
checkpoint the same way agree on it.  Replicas that record it differently
disagree, unless digests coincide or an empty history has left entries of an old
log behind.
-/

namespace Raspen

open Raspen.Transition Raspen.Network

/-- Two correct replicas with the same checkpoint index and the same checkpoint
source have the same checkpoint hash: both transferred it, or both formed it when
the tops of their logs had the same index and the same base. -/
theorem checkpoint_agreement [EntryHasher] {cluster : FastCluster}
    {network : Network MemKvStore}
    (run : Run cluster.toCluster (fun _ => MemKvStore.new) network) {first second : NodeId}
    (_firstCorrect : first ∈ cluster.correct) (_secondCorrect : second ∈ cluster.correct)
    (sameIdx : (network first).replica.chkptIdx = (network second).replica.chkptIdx)
    (_nonzero : 0 < (network first).replica.chkptIdx)
    (sameSource : (network first).provenance.source = (network second).provenance.source) :
    (network first).replica.chkptHash = (network second).replica.chkptHash := by
  have explains := explains_of_localRun (run.localRun first)
  have explains' := explains_of_localRun (run.localRun second)
  calc
    (network first).replica.chkptHash
        = (network first).provenance.source.hash (network first).replica.chkptIdx :=
      explains.checkpoint
    _ = (network second).provenance.source.hash (network second).replica.chkptIdx := by
      rw [sameSource, sameIdx]
    _ = (network second).replica.chkptHash := explains'.checkpoint.symm

/-- Where no history was empty and no entry hash is a filled digest, replicas that
share a checkpoint index agree on its hash only when they share its source. -/
theorem chkptHash_eq_iff [EntryHasher] (injective : Function.Injective EntryHasher.entryHash)
    (noFill : ∀ entry byte, EntryHasher.entryHash entry ≠ Hash.fill byte)
    {cluster : FastCluster} {network : Network MemKvStore}
    (run : Run cluster.toCluster (fun _ => MemKvStore.new) network)
    (nonempty : ∀ node, ∀ call ∈ (network node).calls, ∀ firing ∈ call.cues,
      firing.2 ≠ .applyRepair 0) {first second : NodeId}
    (sameIdx : (network first).replica.chkptIdx = (network second).replica.chkptIdx)
    (nonzero : (network first).replica.chkptIdx ≠ 0) :
    (network first).replica.chkptHash = (network second).replica.chkptHash ↔
      (network first).provenance.source = (network second).provenance.source := by
  have direct := direct_of_localRun (run.localRun first) (nonempty first)
  have direct' := direct_of_localRun (run.localRun second) (nonempty second)
  have atTop := direct.source.resolve_left fun initial => nonzero initial.2
  have atTop' := direct'.source.resolve_left fun initial => nonzero (sameIdx.trans initial.2)
  rw [direct.explains.checkpoint, direct'.explains.checkpoint, ← sameIdx]
  rw [← sameIdx] at atTop'
  constructor
  · exact CheckpointSource.eq_of_hash_eq injective noFill atTop atTop'
  · intro sameSource
    rw [sameSource]

section TwoNodes

attribute [local instance] plainHasher

/-- Two correct replicas. -/
def twoNodes : FastCluster where
  config := Config.forTest 2 0 0
  byzantine := ∅
  nodup := by decide
  length_eq := rfl
  byzQuorum_eq := rfl
  resilient := by decide
  byzantine_subset := by decide
  byzantine_le := by decide
  fastQuorum_eq := rfl
  fastResilient := by decide

/-- Both replicas append an entry and hear of each other's log at `logIdx`. -/
def speculatingActions (logIdx : UInt64) (logHash : Hash) (hearing : List NodeId) :
    List (NodeId × Input) :=
  ["r0", "r1"].map (deliver (.speculate "seq" 0 Hash.zero 0)) ++
    hearing.flatMap fun node =>
      ["r0", "r1"].map fun sender => deliver (.sync sender 0 logIdx logHash 0) node

/-- The hash of the first entry. -/
def firstHash : Hash :=
  EntryHasher.entryHash (syntheticEntry 0)

/-- Both replicas form the checkpoint of index 1 from SYNC quorums. -/
def syncingActions : List (NodeId × Input) :=
  speculatingActions 0 Hash.zero ["r0", "r1"] ++ speculatingActions 1 firstHash ["r0", "r1"]

def syncedNetwork : Network MemKvStore :=
  (execute (Network.next twoNodes.toCluster)
    (Network.start twoNodes.toCluster fun _ => MemKvStore.new) syncingActions).get
    (by decide +kernel)

theorem checkpoint_agreement_twoNodes :
    (syncedNetwork "r0").replica.chkptHash = (syncedNetwork "r1").replica.chkptHash := by
  have run : Run twoNodes.toCluster (fun _ => MemKvStore.new) syncedNetwork :=
    reachable_of_execute (Option.some_get _).symm
  have correct : "r0" ∈ twoNodes.correct ∧ "r1" ∈ twoNodes.correct := by decide
  exact checkpoint_agreement run correct.1 correct.2 (by decide +kernel) (by decide +kernel)
    (by decide +kernel)

/-- One replica forms the checkpoints of 0 and 1; the other aligns on the first
CHECKPOINT and transfers the second one. -/
def transferringActions : List (NodeId × Input) :=
  speculatingActions 0 Hash.zero ["r0"] ++ speculatingActions 1 firstHash ["r0"] ++
    [deliver (.checkpoint "r0" 0 0 Hash.zero) "r1", deliver (.stateRequest "r1" 0) "r0",
      deliver (.stateReply "r0" 1 firstHash) "r1"]

def transferredNetwork : Network MemKvStore :=
  (execute (Network.next twoNodes.toCluster)
    (Network.start twoNodes.toCluster fun _ => MemKvStore.new) transferringActions).get
    (by decide +kernel)

/-- Two correct replicas record different hashes for the same checkpoint. -/
theorem checkpoint_split :
    Function.Injective plainHasher.entryHash ∧
      ¬∀ network : Network MemKvStore,
        Run twoNodes.toCluster (fun _ => MemKvStore.new) network →
        ∀ first ∈ twoNodes.correct, ∀ second ∈ twoNodes.correct,
          (network first).replica.chkptIdx = (network second).replica.chkptIdx →
          0 < (network first).replica.chkptIdx →
          (network first).replica.chkptHash = (network second).replica.chkptHash := by
  refine ⟨plainHasher_injective, ?_⟩
  intro agree
  have run : Run twoNodes.toCluster (fun _ => MemKvStore.new) transferredNetwork :=
    reachable_of_execute (Option.some_get _).symm
  have same := agree transferredNetwork run "r0" (by decide) "r1" (by decide) (by decide +kernel)
    (by decide +kernel)
  have different : (transferredNetwork "r0").replica.chkptHash ≠
      (transferredNetwork "r1").replica.chkptHash := by
    decide +kernel
  exact different same

end TwoNodes

end Raspen
