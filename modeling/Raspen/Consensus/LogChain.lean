import Raspen.Consensus.CheckpointSource
import Raspen.Storage.TopHash

/-!
# Speculative logs are hash chains

A replica that has never rebuilt its log holds a dense log of chained entries, so
its top hash commits to what the storage layer says a top hash commits to.
-/

namespace Raspen

open KvStoreOps Raspen.Transition

/-- The two handlers that replace the whole log. -/
def Cue.rebuilds : Cue → Bool
  | .stateReply _ | .applyRepair _ => true
  | _ => false

variable [EntryHasher]

/-- A log without a rebuilt part is a hash chain. -/
theorem Provenance.Direct.chainedLog {provenance : Provenance} {replica : Replica MemKvStore}
    (direct : provenance.Direct replica) (base_eq : provenance.base = 0) :
    ChainedLog replica.kvStore replica.kvSize := by
  have stored : ∀ k < replica.kvSize,
      replica.kvStore.entries[k]? = some (expectedEntry 0 k.toNat) := by
    have log := direct.explains.log
    rw [base_eq] at log
    exact log
  have inside : ∀ k entry, replica.kvStore.entries[k]? = some entry → k < replica.kvSize := by
    intro k entry atIndex
    have last := direct.explains.top
    rw [direct.top] at last
    by_cases empty : replica.kvSize = 0
    · rw [if_pos empty] at last
      rw [MemKvStore.lastEntry_eq_none_iff.mp last k] at atIndex
      contradiction
    · rw [if_neg empty] at last
      have highest : k ≤ replica.kvSize - 1 :=
        (MemKvStore.lastEntry_eq_some_iff.mp last).2 k entry atIndex
      have predecessor := toNat_sub_one (UInt64.pos_iff_ne_zero.mpr empty)
      rw [UInt64.le_iff_toNat_le] at highest
      rw [UInt64.lt_iff_toNat_lt]
      omega
  constructor
  · intro k
    exact ⟨fun ⟨entry, atIndex⟩ => inside k entry atIndex, fun below => ⟨_, stored k below⟩⟩
  · intro entry atFirst
    rw [stored 0 (inside 0 entry atFirst)] at atFirst
    cases atFirst
    rfl
  · intro k entry nonzero atIndex
    have below := UInt64.lt_iff_toNat_lt.mp (inside k entry atIndex)
    obtain ⟨positive, predecessor⟩ := toNat_sub_one (UInt64.pos_iff_ne_zero.mpr nonzero)
    have belowToo : k - 1 < replica.kvSize := by
      rw [UInt64.lt_iff_toNat_lt]
      omega
    have index_eq : k.toNat = (k - 1).toNat + 1 := by omega
    rw [stored k (inside k entry atIndex), index_eq, Option.some.injEq] at atIndex
    rw [MemKvStore.hashAt_of_getElem? (stored (k - 1) belowToo), ← atIndex,
      prevHash_expectedEntry_succ (Nat.zero_le _)]

variable {config : Config} {nodeId : NodeId} {history : History MemKvStore}

/-- In a run that never rebuilds the log, the log is a hash chain. -/
theorem chainedLog_of_localRun (run : LocalRun config nodeId MemKvStore.new history)
    (kept : ∀ call ∈ history.calls, ∀ firing ∈ call.cues, firing.2.rebuilds = false) :
    ChainedLog history.replica.kvStore history.replica.kvSize := by
  have direct := direct_of_localRun run fun call callMem firing firingMem empties => by
    have keeps := kept call callMem firing firingMem
    rw [empties] at keeps
    contradiction
  apply direct.chainedLog
  apply run.provenance_invariant (P := fun provenance _ => provenance.base = 0)
    (fun cue => cue.rebuilds = false) kept rfl (fun _ base_eq => base_eq)
  intro input provenance replica cue next effects base_eq keeps _ _
  cases cue with
  | stateReply chkptIdx => contradiction
  | applyRepair historyHash => contradiction
  | _ => exact base_eq

end Raspen
