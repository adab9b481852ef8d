import Raspen.Consensus.History

/-!
# Phase consistency

`phase`, `in_repair` and `proposed_history_hash` are written by ten handlers.
They stay in step because every REPAIR move keeps them in step.
-/

namespace Raspen

open Raspen.Transition

variable {S : Type}

/-- `in_repair` mirrors the phase, and a proposal exists only from PreparePhase
on. -/
structure PhaseConsistent (replica : Replica S) : Prop where
  inRepair_iff : replica.inRepair = true ↔
    replica.phase = .collectingLogs ∨ replica.phase = .preparePhase ∨
      replica.phase = .commitPhase
  proposed_eq_zero : replica.phase = .speculative ∨ replica.phase = .aligning ∨
    replica.phase = .collectingLogs → replica.proposedHistoryHash = 0

theorem phaseConsistent_new (config : Config) (nodeId : NodeId) (kvStore : S) :
    PhaseConsistent (Replica.new config nodeId kvStore) where
  inRepair_iff := by simp [Replica.new]
  proposed_eq_zero _ := rfl

namespace PhaseConsistent

variable {replica next : Replica S}

theorem inRepair_eq (consistent : PhaseConsistent replica) :
    replica.inRepair = replica.phase.isRepair := by
  rw [Bool.eq_iff_iff, consistent.inRepair_iff]
  cases replica.phase <;> simp [Phase.isRepair]

/-- A quiet step changes the phase only outside REPAIR, where no proposal
exists. -/
theorem of_quietStep (consistent : PhaseConsistent replica) (quiet : QuietStep replica next) :
    PhaseConsistent next := by
  rcases quiet.log with ⟨phaseEq, _⟩ | ⟨nextOutside, outside⟩
  · constructor
    · rw [quiet.inRepair, phaseEq]
      exact consistent.inRepair_iff
    · rw [quiet.proposed, phaseEq]
      exact consistent.proposed_eq_zero
  · have inRepair_eq_false : replica.inRepair = false := consistent.inRepair_eq.trans outside
    have proposed_eq : replica.proposedHistoryHash = 0 := by
      apply consistent.proposed_eq_zero
      cases phase : replica.phase <;> simp_all [Phase.isRepair]
    constructor
    · rw [quiet.inRepair, inRepair_eq_false]
      cases phase : next.phase <;> simp_all [Phase.isRepair]
    · intro _
      rw [quiet.proposed, proposed_eq]

variable [KvStoreOps S]

/-- Every REPAIR move keeps the phase consistent. -/
theorem of_repairMove {effects : List Effect} (consistent : PhaseConsistent replica)
    (move : RepairMove replica next effects) : PhaseConsistent next := by
  cases move with
  | quiet quiet _ => exact consistent.of_quietStep quiet
  | enter outside _ =>
      -- entered from Speculative or Aligning, where no proposal is pending
      have phase_outside : replica.phase.isRepair = false := consistent.inRepair_eq ▸ outside
      have proposed_eq : replica.proposedHistoryHash = 0 := by
        apply consistent.proposed_eq_zero
        cases phase : replica.phase <;> simp_all [Phase.isRepair]
      exact ⟨by simp, fun _ => proposed_eq⟩
  | propose guard =>
      have collecting := (canBroadcastHistory_eq_some_iff.mp guard).1
      exact ⟨by simp [consistent.inRepair_iff, collecting], by simp⟩
  | vote relevant _ =>
      have inside : replica.inRepair = true := by
        rw [consistent.inRepair_iff]
        rcases relevant with collecting | preparing
        · exact .inl collecting
        · exact .inr (.inl preparing)
      exact ⟨by simp [inside], by simp⟩
  | lock guard =>
      have preparing := (canRepairCommit_eq_some_iff.mp guard).1
      exact ⟨by simp [consistent.inRepair_iff, preparing], by simp⟩
  | apply _ _ _ => exact ⟨by simp, fun _ => rfl⟩
  | catchup _ _ => exact ⟨by simp, fun _ => rfl⟩
  | changeView collecting _ => exact ⟨consistent.inRepair_iff, consistent.proposed_eq_zero⟩

end PhaseConsistent

variable [KvStoreOps S] {config : Config} {nodeId : NodeId} {kvStore : S} {history : History S}

/-- In every reachable state `in_repair` holds exactly in the three REPAIR
phases, and no history is proposed before PreparePhase. -/
theorem phase_consistency (run : LocalRun config nodeId kvStore history) :
    PhaseConsistent history.replica :=
  run.repair_invariant (P := fun replica _ => PhaseConsistent replica)
    (phaseConsistent_new config nodeId kvStore) PhaseConsistent.of_repairMove

section Solo

attribute [local instance] plainHasher

theorem phase_consistency_solo :
    soloHistory.replica.phase = .commitPhase ∧ PhaseConsistent soloHistory.replica :=
  ⟨by decide +kernel, phase_consistency localRun_soloHistory⟩

end Solo

end Raspen
