import Raspen.Consensus.Provenance
import Raspen.Network.Repair

/-!
# What REPAIR keeps of the fast path

An applied history is a length.  The log it installs consists of synthetic
entries, so it keeps a speculatively committed entry exactly when that entry
happens to be the synthetic one; the first entry always is.
-/

namespace Raspen

open KvStoreOps Raspen.Transition Raspen.Quorum Raspen.Network

/-- `node` has emitted a SPEC-REPLY for `logHash` at the round and index of the
slot. -/
def SpecReplied {S : Type} (network : Network S) (node : NodeId) (slot : UInt64 × UInt64)
    (logHash : Hash) : Prop :=
  .specReply node slot.1 slot.2 logHash ∈ (network node).messages

/-- `logHash` is the hash at `logIdx` of the log `replica` has. -/
def Keeps [EntryHasher] (replica : Replica MemKvStore) (logIdx : UInt64) (logHash : Hash) : Prop :=
  logIdx < replica.kvSize ∧ hashAt replica.kvStore logIdx = .ok logHash

/-- An applied history keeps the synthetic entries below its length. -/
theorem keeps_of_applied_iff [EntryHasher] {call : Call MemKvStore} {replica : Replica MemKvStore}
    {historyHash logIdx : UInt64} {logHash : Hash} (applied : Applied call replica historyHash) :
    Keeps call.post logIdx logHash ↔ logIdx < historyHash ∧
      logHash = EntryHasher.entryHash (syntheticEntry logIdx) := by
  unfold Keeps
  rw [applied.kvSize]
  apply and_congr_right
  intro below
  have inside := UInt64.lt_iff_toNat_lt.mp below
  have positive : 0 < historyHash := UInt64.lt_iff_toNat_lt.mpr (Nat.zero_lt_of_lt inside)
  have installed := applied.store
  rw [mergedStore, if_pos positive] at installed
  have stored := getElem?_of_rebuild (ok_of_toOption_eq_some installed) logIdx
  rw [if_pos inside] at stored
  rw [MemKvStore.hashAt_of_getElem? stored, Except.ok.injEq, eq_comm]

section Kept

variable [EntryHasher] {cluster : FastCluster} {network : Network MemKvStore}

/-- A hash committed at the first index is that of the synthetic entry. -/
theorem firstHash_of_certified (run : Run cluster.toCluster (fun _ => MemKvStore.new) network)
    {round : UInt64} {logHash : Hash}
    (committed : cluster.fastModel.Certified (SpecReplied network) (round, 0) logHash) :
    logHash = EntryHasher.entryHash (syntheticEntry 0) := by
  rcases committed.exists_correct with ⟨node, _, replied⟩
  rcases List.mem_map.mp replied with ⟨effect, effectMem, isReply⟩
  rcases (reportsLog_of_localRun (run.localRun node)).reports effect effectMem _ _ _ _ isReply with
    ⟨base, same⟩
  exact same

/-- After a fast commit of `logHash` at `logIdx` in `round`, a correct replica
that applies a history of that round keeps it exactly when `logIdx` is below the
length of the history and `logHash` is that of the synthetic entry.  All correct
replicas apply the same length, and a commit at the first index is kept unless
the history is empty. -/
theorem fast_commit_kept_iff (run : Run cluster.toCluster (fun _ => MemKvStore.new) network)
    {round logIdx : UInt64} {logHash : Hash}
    (committed : cluster.fastModel.Certified (SpecReplied network) (round, logIdx) logHash)
    {node : NodeId} (_correct : node ∈ cluster.correct) {call : Call MemKvStore}
    (callMem : call ∈ (network node).calls) {historyHash : UInt64}
    (applies : call.AppliesIn round historyHash) :
    (Keeps call.post logIdx logHash ↔ logIdx < historyHash ∧
      logHash = EntryHasher.entryHash (syntheticEntry logIdx)) ∧
    (∀ other ∈ cluster.correct, ∀ call' ∈ (network other).calls, ∀ historyHash',
      call'.AppliesIn round historyHash' → historyHash' = historyHash) ∧
    (logIdx = 0 → 0 < historyHash → Keeps call.post logIdx logHash) := by
  rcases applied_of_appliesIn ((run.localRun node).step_of_mem_calls callMem) applies with
    ⟨replica, sameRound, applied⟩
  refine ⟨keeps_of_applied_iff applied, ?_, ?_⟩
  · intro other _ call' callMem' historyHash' applies'
    rcases applied_of_appliesIn ((run.localRun other).step_of_mem_calls callMem') applies' with
      ⟨replica', sameRound', applied'⟩
    exact applied_unique run callMem' callMem applied' applied (sameRound'.trans sameRound.symm)
  · rintro rfl positive
    exact (keeps_of_applied_iff applied).mpr ⟨positive, firstHash_of_certified run committed⟩

end Kept

section FourNodes

attribute [local instance] plainHasher

/-- Three correct replicas append two entries each. -/
def committingEntries : List (NodeId × Input) :=
  ["r1", "r2", "r3"].map (deliver (.speculate "seq" 0 Hash.zero 0)) ++
    ["r1", "r2", "r3"].map (deliver (.speculate "seq" 0 Hash.zero 1))

def committedNetwork : Network MemKvStore :=
  (execute (Network.next fourNodes) (Network.start fourNodes fun _ => MemKvStore.new)
    committingEntries).get (by decide +kernel)

/-- A conflict proof then leads to a REPAIR of the round, with a history of
length 3. -/
def repairingActions : List (NodeId × Input) :=
  ["r1", "r2"].map (deliver (.conflictProof 0 0)) ++
    ["r1", "r2"].map (deliver (.repairHistory "r0" 0 0 3)) ++
    (["r0", "r1", "r2"].flatMap fun voter =>
      ["r1", "r2"].map (deliver (.repairPrepare voter 0 0 3))) ++
    ["r0", "r1", "r2"].map fun voter => deliver (.repairCommit voter 0 0 3) "r1"

def repairedNetwork : Network MemKvStore :=
  (execute (Network.next fourNodes) committedNetwork repairingActions).get (by decide +kernel)

theorem run_repairedNetwork : Run fourNodes (fun _ => MemKvStore.new) repairedNetwork :=
  Reachable.trans (reachable_of_execute (Option.some_get _).symm)
    (reachable_of_execute (Option.some_get _).symm)

/-- The hash of the second speculative entry. -/
def secondHash : Hash :=
  EntryHasher.entryHash (expectedEntry 0 1)

theorem certified_secondHash :
    fastFourNodes.fastModel.Certified (SpecReplied committedNetwork) (0, 1) secondHash := by
  refine ⟨{"r0", "r1", "r2", "r3"}, by decide, by decide, ?_⟩
  unfold SpecReplied
  decide +kernel

/-- A fast quorum commits an entry, and a correct replica that leaves REPAIR of
the round afterwards has a different entry at its index. -/
theorem fast_commit_lost :
    Function.Injective plainHasher.entryHash ∧
      ¬∀ network later : Network MemKvStore, Run fourNodes (fun _ => MemKvStore.new) network →
        Reachable (Network.next fourNodes) network later → ∀ round logIdx logHash,
        fastFourNodes.fastModel.Certified (SpecReplied network) (round, logIdx) logHash →
        ∀ node ∈ fourNodes.correct,
        ∀ call ∈ (later node).calls.drop (network node).calls.length, ∀ historyHash,
        call.AppliesIn round historyHash → Keeps call.post logIdx logHash := by
  constructor
  · exact plainHasher_injective
  · intro durable
    have applies : ∃ call ∈ (repairedNetwork "r1").calls.drop (committedNetwork "r1").calls.length,
        call.AppliesIn 0 3 ∧ ¬(hashAt call.post.kvStore 1).toOption = some secondHash := by
      decide +kernel
    rcases applies with ⟨call, callMem, applies, lost⟩
    have kept := durable committedNetwork repairedNetwork
      (reachable_of_execute (Option.some_get _).symm)
      (reachable_of_execute (Option.some_get _).symm) 0 1 secondHash certified_secondHash "r1"
      (by decide) call callMem 3 applies
    rw [kept.2] at lost
    exact lost rfl

theorem fast_commit_kept_fourNodes :
    ∃ call ∈ (repairedNetwork "r1").calls, ¬Keeps call.post 1 secondHash := by
  have applies : ∃ call ∈ (repairedNetwork "r1").calls, call.AppliesIn 0 3 := by decide +kernel
  rcases applies with ⟨call, callMem, applies⟩
  have committed :
      fastFourNodes.fastModel.Certified (SpecReplied repairedNetwork) (0, 1) secondHash := by
    refine ⟨{"r0", "r1", "r2", "r3"}, by decide, by decide, ?_⟩
    unfold SpecReplied
    decide +kernel
  have run : Run fastFourNodes.toCluster (fun _ => MemKvStore.new) repairedNetwork :=
    run_repairedNetwork
  have correct : "r1" ∈ fastFourNodes.correct := by decide
  have kept_iff := (fast_commit_kept_iff run committed correct callMem applies).1
  refine ⟨call, callMem, ?_⟩
  rw [kept_iff]
  rintro ⟨_, same⟩
  have different : secondHash ≠ EntryHasher.entryHash (syntheticEntry 1) := by decide +kernel
  exact different same

end FourNodes

end Raspen
