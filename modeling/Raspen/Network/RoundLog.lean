import Raspen.Consensus.InStep
import Raspen.Network.Deadlock
import Raspen.Network.Refinement

/-!
# One log for each round

The replicas of a round that are in step have started from one agreed history.  They write
the same log, at whatever speed, and report the same hashes to the clients.
-/

namespace Raspen.Network

open Raspen.Transition

section Rounds

variable [EntryHasher] {cluster : Cluster} {network later : Network MemKvStore}

/-- What has been applied stays applied. -/
theorem appliedIn_mono (onwards : Reachable (next cluster) network later)
    {round historyHash : UInt64} (applied : AppliedIn network round historyHash) :
    AppliedIn later round historyHash := by
  apply onwards.invariant (P := fun network => AppliedIn network round historyHash) applied
  intro before after action _ holds taken
  obtain ⟨_, _, applied_iff⟩ := appliedIn_next_iff taken
  exact (applied_iff round historyHash).mpr (.inl holds)

/-- A replica in step rests on the history of the round before. -/
theorem base_cases (run : Run cluster (fun _ => MemKvStore.new) network) {node : NodeId}
    (inStep : (network node).inStep = true) :
    ((network node).replica.round = 0 ∧ (network node).firings.provenance.base = 0) ∨
      ∃ round historyHash, AppliedIn network round historyHash ∧
        addU64 round 1 = some (network node).replica.round ∧
          (network node).firings.provenance.base = installedTop historyHash := by
  rcases (follows_of_localRun (run.localRun node)).base inStep with
    first | ⟨firing, firingMem, historyHash, applies, advanced, base_eq⟩
  · exact .inl first
  · right
    obtain ⟨call, callMem, fires⟩ := List.mem_flatMap.mp firingMem
    exact ⟨_, historyHash, ⟨node, call, callMem, firing, fires, applies, rfl⟩, advanced, base_eq⟩

/-- All replicas that are ever in step in a round rest on the same history. -/
theorem base_unique (run : Run cluster (fun _ => MemKvStore.new) network)
    (onwards : Reachable (next cluster) network later) {first second : NodeId}
    (inStep : (network first).inStep = true) (inStep' : (later second).inStep = true)
    (sameRound : (network first).replica.round = (later second).replica.round) :
    (network first).firings.provenance.base = (later second).firings.provenance.base := by
  have laterRun : Run cluster (fun _ => MemKvStore.new) later := run.trans onwards
  rcases base_cases run inStep with
    ⟨initial, base_eq⟩ | ⟨round, historyHash, applied, advanced, base_eq⟩
  · rcases base_cases laterRun inStep' with ⟨_, base_eq'⟩ | ⟨_, _, _, advanced', _⟩
    · rw [base_eq, base_eq']
    · have grown := lt_of_addU64_one advanced'
      rw [← sameRound, initial] at grown
      exact absurd grown UInt64.not_lt_zero
  · rcases base_cases laterRun inStep' with
      ⟨initial, _⟩ | ⟨round', historyHash', applied', advanced', base_eq'⟩
    · have grown := lt_of_addU64_one advanced
      rw [sameRound, initial] at grown
      exact absurd grown UInt64.not_lt_zero
    · have before : round = round' := by
        have sum := toNat_of_addU64 advanced
        rw [sameRound, toNat_of_addU64 advanced'] at sum
        exact UInt64.toNat_inj.mp (Nat.add_right_cancel sum).symm
      subst before
      rw [base_eq, base_eq',
        appliedIn_unique laterRun (appliedIn_mono onwards applied) applied']

/-- There is one log for each round.  Any two replicas that are in step in a round, at
whatever times, hold the same entries below both their sizes, and have told the clients the
same hash at every index. -/
theorem one_log_per_round (run : Run cluster (fun _ => MemKvStore.new) network)
    (onwards : Reachable (next cluster) network later) {first second : NodeId}
    (inStep : (network first).inStep = true) (inStep' : (later second).inStep = true)
    (sameRound : (network first).replica.round = (later second).replica.round) :
    (∀ k, k < (network first).replica.kvSize → k < (later second).replica.kvSize →
      ∃ entry, (network first).replica.kvStore.entries[k]? = some entry ∧
        (later second).replica.kvStore.entries[k]? = some entry) ∧
    ∀ sender sender' logIdx logHash logHash',
      .specReply sender (network first).replica.round logIdx logHash ∈
        (network first).messages →
      .specReply sender' (network first).replica.round logIdx logHash' ∈
        (later second).messages →
      logHash = logHash' := by
  have laterRun : Run cluster (fun _ => MemKvStore.new) later := run.trans onwards
  have sameBase := base_unique run onwards inStep inStep' sameRound
  constructor
  · intro k below below'
    have explains := (follows_of_localRun (run.localRun first)).explains
    have explains' := (follows_of_localRun (laterRun.localRun second)).explains
    refine ⟨_, explains.log k below, ?_⟩
    rw [sameBase]
    exact explains'.log k below'
  · intro sender sender' logIdx logHash logHash' replied replied'
    rw [sameRound] at replied'
    rw [reply_of_inStep (run.localRun first) inStep replied,
      reply_of_inStep (laterRun.localRun second) inStep' replied', sameBase]

end Rounds

section FourNodes

attribute [local instance] plainHasher

/-- One replica writes an entry of round 1. -/
def leadingNetwork : Network MemKvStore :=
  (execute (next fourNodes) appliedNetwork
    [deliver (.speculate "sequencer" 1 Hash.zero 0) "r1"]).get (by decide +kernel)

/-- Later, another one writes two. -/
def followingNetwork : Network MemKvStore :=
  (execute (next fourNodes) leadingNetwork
    [deliver (.speculate "sequencer" 1 (Hash.fill 1) 1) "r2",
      deliver (.speculate "sequencer" 1 (Hash.fill 2) 2) "r2"]).get (by decide +kernel)

theorem one_log_per_round_fourNodes :
    (leadingNetwork "r1").replica.kvSize = 2 ∧ (followingNetwork "r2").replica.kvSize = 3 ∧
      ∃ entry, (leadingNetwork "r1").replica.kvStore.entries[(1 : UInt64)]? = some entry ∧
        (followingNetwork "r2").replica.kvStore.entries[(1 : UInt64)]? = some entry := by
  have run : Run fourNodes (fun _ => MemKvStore.new) leadingNetwork :=
    run_appliedNetwork.trans (reachable_of_execute (Option.some_get _).symm)
  have onwards : Reachable (next fourNodes) leadingNetwork followingNetwork :=
    reachable_of_execute (Option.some_get _).symm
  have size : (leadingNetwork "r1").replica.kvSize = 2 := by decide +kernel
  have size' : (followingNetwork "r2").replica.kvSize = 3 := by decide +kernel
  refine ⟨size, size', ?_⟩
  apply (one_log_per_round run onwards (by decide +kernel) (by decide +kernel)
    (by decide +kernel)).1 1
  · rw [size]
    decide
  · rw [size']
    decide

end FourNodes

end Raspen.Network
