import Raspen.Consensus.CommittedPrefix

/-!
# The SYNC threshold

A SYNC is due when the log has grown past the last checkpoint.  The guard compares a
number of entries with the index of an entry, so a log whose top is checkpointed still
counts as grown, and each message that arrives sends a SYNC.
-/

namespace Raspen

open KvStoreOps Raspen.Transition

variable {S : Type} [KvStoreOps S]

/-- Some handler of the run has recorded a checkpoint. -/
def History.HasCheckpoint (history : History S) : Prop :=
  Recorded (history.calls.flatMap Call.cues)

/-- The latest checkpoint is the top of the log. -/
def History.Covered (history : History S) : Prop :=
  history.HasCheckpoint ∧ history.replica.kvSize.toNat = history.replica.chkptIdx.toNat + 1

/-- Some entry lies beyond the latest checkpoint, or there are entries and no checkpoint. -/
def History.Beyond (history : History S) : Prop :=
  history.HasCheckpoint ∧ history.replica.chkptIdx.toNat + 1 < history.replica.kvSize.toNat ∨
    ¬history.HasCheckpoint ∧ 0 < history.replica.kvSize.toNat

/-- The threshold keeps silent about a checkpointed log, so that a call that appends
nothing sends no SYNC, and asks for a SYNC of every other log with entries. -/
structure ThresholdSound (history : History S) : Prop where
  stops : history.Covered → canSendSyncThreshold history.replica = none
  silent : history.Covered → ∀ order msg post effects,
    canSpeculate history.replica msg = none →
    processMessage order history.replica msg = some (post, effects) →
    ∀ effect ∈ effects, effect.message.isSync = false
  due : history.Beyond →
    canSendSyncThreshold history.replica = some (history.replica.kvSize - 1)

omit [KvStoreOps S] in
/-- The threshold is passed when there are more entries than the checkpoint index. -/
theorem canSendSyncThreshold_of_lt {replica : Replica S}
    (speculative : replica.phase = .speculative)
    (grown : replica.chkptIdx.toNat < replica.kvSize.toNat) :
    canSendSyncThreshold replica = some (replica.kvSize - 1) := by
  have nonempty : replica.kvSize ≠ 0 := by
    intro empty
    simp [empty] at grown
  have above : ¬replica.kvSize ≤ replica.chkptIdx := by
    rw [UInt64.le_iff_toNat_le]
    omega
  simp [canSendSyncThreshold, speculative, nonempty, above]

/-- A message that appends nothing is answered by a SYNC once the threshold is passed. -/
theorem sync_of_threshold {order : HashOrder} {msg : Message} {replica post : Replica S}
    {effects : List Effect} {logIdx : UInt64} (noAppend : canSpeculate replica msg = none)
    (due : canSendSyncThreshold replica = some logIdx)
    (steps : processMessage order replica msg = some (post, effects)) :
    ∃ effect ∈ effects, effect.message.isSync = true := by
  have performs : perform replica (.sendSync logIdx) = some (replica,
      [.broadcast (.sync replica.nodeId replica.round logIdx (topHash replica.kvStore)
        replica.etaStar)]) := rfl
  simp only [processMessage, normalStages, List.cons_append] at steps
  rw [runStages_cons_of_silent rfl (congrArg (Option.map Cue.speculate) noAppend),
    runStages_cons_of_heard rfl (congrArg (Option.map Cue.sendSync) due) performs] at steps
  rcases Option.map_eq_some_iff.mp steps with ⟨later, _, ended⟩
  cases ended
  exact ⟨_, List.mem_append_left _ List.mem_cons_self, rfl⟩

section Runs

variable {config : Config} {nodeId : NodeId} {kvStore : S} {history : History S}

/-- Until a checkpoint is recorded its index is 0. -/
theorem chkptIdx_of_noCheckpoint (run : LocalRun config nodeId kvStore history)
    (fresh : ¬history.HasCheckpoint) : history.replica.chkptIdx = 0 := by
  have recordedOrZero := run.fired_invariant
    (P := fun replica trace => Recorded trace ∨ replica.chkptIdx = 0)
    (fun _ _ => True) (fun _ _ _ _ => trivial) (.inr rfl) ?_ ?_
  · exact recordedOrZero.resolve_left fresh
  · intro replica trace msg before
    simpa using before
  · intro input replica cue next effects trace before _ _ performs
    rw [recorded_append]
    cases records : cue.records with
    | true => exact .inl (.inr rfl)
    | false =>
        rcases before with recorded | zero
        · exact .inl (.inl recorded)
        · exact .inr ((chkptIdx_of_perform records performs).trans zero)

/-- The threshold is sound in a Speculative state exactly when the latest checkpoint is
not the top of the log.  Where it is, every message that appends nothing sends a SYNC. -/
theorem threshold_sound_iff (run : LocalRun config nodeId kvStore history)
    (speculative : history.replica.phase = .speculative) :
    (ThresholdSound history ↔ ¬history.Covered) ∧
      (history.Covered → ∀ order msg post effects,
        canSpeculate history.replica msg = none →
        processMessage order history.replica msg = some (post, effects) →
        ∃ effect ∈ effects, effect.message.isSync = true) := by
  have due : history.Covered →
      canSendSyncThreshold history.replica = some (history.replica.kvSize - 1) := by
    rintro ⟨_, top⟩
    exact canSendSyncThreshold_of_lt speculative (by omega)
  constructor
  · constructor
    · intro sound covered
      have silent := sound.stops covered
      rw [due covered] at silent
      contradiction
    · intro uncovered
      constructor
      · intro covered
        exact absurd covered uncovered
      · intro covered
        exact absurd covered uncovered
      · rintro (⟨_, beyond⟩ | ⟨fresh, nonempty⟩)
        · exact canSendSyncThreshold_of_lt speculative (by omega)
        · apply canSendSyncThreshold_of_lt speculative
          rw [chkptIdx_of_noCheckpoint run fresh]
          exact nonempty
  · intro covered order msg post effects noAppend steps
    exact sync_of_threshold noAppend (due covered) steps

end Runs

/-! ## A checkpointed log of one entry -/

section Checkpointed

attribute [local instance] plainHasher

/-- A replica appends an entry and checkpoints it on its own SYNC. -/
def checkpointedHistory : History MemKvStore :=
  (execute History.next (History.start (Config.forTest 1 0 0) "r0" MemKvStore.new)
    [.message .greatest (.speculate "seq" 0 Hash.zero 0),
      .message .greatest (.sync "r0" 0 0 Hash.zero 0)]).get (by decide +kernel)

theorem localRun_checkpointedHistory :
    LocalRun (Config.forTest 1 0 0) "r0" MemKvStore.new checkpointedHistory :=
  reachable_of_execute (Option.some_get _).symm

theorem covered_checkpointedHistory :
    checkpointedHistory.Covered ∧ checkpointedHistory.replica.phase = .speculative := by
  constructor
  · constructor
    · unfold History.HasCheckpoint
      decide +kernel
    · decide +kernel
  · decide +kernel

/-- The only entry is checkpointed, and the threshold asks for a SYNC. -/
theorem threshold_overshoots :
    canSendSyncThreshold checkpointedHistory.replica = some 0 ∧
      ¬∀ (config : Config) (nodeId : NodeId) (history : History MemKvStore),
        LocalRun config nodeId MemKvStore.new history →
          history.replica.phase = .speculative → ThresholdSound history := by
  have due : canSendSyncThreshold checkpointedHistory.replica = some 0 := by
    decide +kernel
  constructor
  · exact due
  · intro sound
    obtain ⟨covered, speculative⟩ := covered_checkpointedHistory
    have silent := (sound _ _ _ localRun_checkpointedHistory speculative).stops covered
    rw [silent] at due
    contradiction

theorem threshold_sound_iff_checkpointed : ¬ThresholdSound checkpointedHistory := by
  obtain ⟨covered, speculative⟩ := covered_checkpointedHistory
  intro sound
  exact (threshold_sound_iff localRun_checkpointedHistory speculative).1.mp sound covered

end Checkpointed

end Raspen
