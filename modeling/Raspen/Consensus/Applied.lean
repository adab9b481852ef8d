import Raspen.Consensus.Emission
import Raspen.Consensus.Evidence

/-!
# Applied histories

A replica that applies a history announces it with a REPAIR-DONE, keeps the
commit votes that allowed it, and ends the call in the state the handler wrote.
-/

namespace Raspen

open Raspen.Transition

variable {S : Type} [KvStoreOps S]

/-- The handler that applies `historyHash` ran in this call, in `round`. -/
def Call.AppliesIn (call : Call S) (round historyHash : UInt64) : Prop :=
  ∃ firing ∈ call.cues, firing.2 = .applyRepair historyHash ∧ firing.1.round = round

instance (call : Call S) (round historyHash : UInt64) :
    Decidable (call.AppliesIn round historyHash) :=
  inferInstanceAs (Decidable (∃ firing ∈ call.cues, _))

/-- What a call leaves behind when it applies `historyHash` on `replica`. -/
structure Applied (call : Call S) (replica : Replica S) (historyHash : UInt64) : Prop where
  guard : canApplyRepair replica = some historyHash
  store : mergedStore replica.kvStore historyHash = some call.post.kvStore
  kvSize : call.post.kvSize = historyHash
  startIdx : call.post.startIdx = historyHash
  round : addU64 replica.round 1 = some call.post.round
  phase : call.post.phase = .speculative
  done : .broadcast (.repairDone replica.nodeId replica.view replica.round historyHash) ∈
    call.effects

/-- An applied history is in force when the call ends: the catch-up is silent in
Speculative phase, and no timer writes the log. -/
theorem applied_of_mem_cues {call : Call S}
    (steps : step call.pre call.input = some (call.post, call.effects)) {replica : Replica S}
    {historyHash : UInt64} (fires : (replica, .applyRepair historyHash) ∈ call.cues) :
    Applied call replica historyHash := by
  have guard : canApplyRepair replica = some historyHash := Call.guard_of_mem_cues fires
  rw [step_eq_runStages] at steps
  rcases performs_of_fired steps fires with ⟨next, emitted, performs, emits⟩
  have left := holds_after_fired (P := fun state : Replica S =>
    mergedStore replica.kvStore historyHash = some state.kvStore ∧ state.kvSize = historyHash ∧
      state.startIdx = historyHash ∧ addU64 replica.round 1 = some state.round ∧
      state.phase = .speculative) (pairwise_stages call.input) steps fires ?_ ?_
  · rcases left with ⟨store, kvSize, startIdx, round, phase⟩
    rcases handleApplyRepair_eq_some performs with ⟨_, _, _, _, _, rfl⟩
    exact
      { guard := guard
        store := store
        kvSize := kvSize
        startIdx := startIdx
        round := round
        phase := phase
        done := emits _ List.mem_cons_self }
  · intro next emitted performs
    rcases handleApplyRepair_eq_some performs with ⟨_, _, advanced, installed, rfl, _⟩
    exact ⟨installed, rfl, rfl, advanced, rfl⟩
  · apply preserves_stages
    · intro state msg _ holds
      simpa using holds
    · intro state cue next emitted holds later guard performs
      cases cue with
      | repairDoneCatchup oldRound =>
          have catchup : canRepairDoneCatchup state = some oldRound := guard
          rw [canRepairDoneCatchup_of_speculative holds.2.2.2.2] at catchup
          contradiction
      | chkptTimeout logIdx =>
          cases performs
          exact holds
      | viewChange newView =>
          rcases perform_viewChange_eq_some performs with ⟨view, _, rfl, _⟩
          exact holds
      | _ => simp [Cue.place] at later

/-- A call that applies a history in `round` does so on a replica in that round. -/
theorem applied_of_appliesIn {call : Call S}
    (steps : step call.pre call.input = some (call.post, call.effects))
    {round historyHash : UInt64} (applies : call.AppliesIn round historyHash) :
    ∃ replica, replica.round = round ∧ Applied call replica historyHash := by
  rcases applies with ⟨⟨replica, cue⟩, fires, rfl, rfl⟩
  exact ⟨replica, rfl, applied_of_mem_cues steps fires⟩

/-! ## Votes behind an applied history -/

/-- Every emitted REPAIR-DONE rests on stored commit votes of a quorum. -/
def DoneBacked (replica : Replica S) (trace : List Effect) : Prop :=
  ∀ effect ∈ trace, ∀ sender view round historyHash,
    effect.message = .repairDone sender view round historyHash →
    replica.config.byzQuorum ≤
      (senders (Message.isRepairCommitFor view round historyHash) replica.repairCommitMsgs).card

/-- Stored commit votes are never dropped. -/
theorem repairCommitMsgs_of_repairMove {replica next : Replica S} {effects : List Effect}
    (move : RepairMove replica next effects) :
    next.config = replica.config ∧ replica.repairCommitMsgs ⊆ next.repairCommitMsgs := by
  cases move with
  | quiet quiet _ => exact ⟨quiet.config, quiet.repairCommitMsgs⟩
  | enter _ _ | propose _ | vote _ _ | lock _ | apply _ _ _ | catchup _ _ | changeView _ _ =>
      exact ⟨rfl, Finset.Subset.refl _⟩

/-- Only an application emits a REPAIR-DONE, and its guard has counted the votes. -/
theorem quorum_of_emitted_done {replica next : Replica S} {effects : List Effect}
    {effect : Effect} {sender : NodeId} {view round historyHash : UInt64}
    (move : RepairMove replica next effects) (effectMem : effect ∈ effects)
    (isDone : effect.message = .repairDone sender view round historyHash) :
    replica.config.byzQuorum ≤ (senders (Message.isRepairCommitFor view round historyHash)
      replica.repairCommitMsgs).card := by
  have loud : effect.message.isRepair ≠ false := by simp [isDone, Message.isRepair]
  cases move with
  | quiet _ quiet => exact absurd (quiet effect effectMem) loud
  | enter _ quiet =>
      rcases List.mem_append.mp effectMem with proofMem | logMem
      · exact absurd (quiet effect proofMem) loud
      · rw [List.mem_singleton.mp logMem] at isDone
        contradiction
  | propose _ | vote _ _ | lock _ | changeView _ _ =>
      rw [List.mem_singleton.mp effectMem] at isDone
      contradiction
  | apply guard _ _ =>
      rcases List.mem_cons.mp effectMem with rfl | replyMem
      · cases isDone
        rw [card_commitSenders]
        exact (canApplyRepair_eq_some_iff.mp guard).2.2
      · rw [List.mem_singleton.mp replyMem] at isDone
        contradiction
  | catchup _ _ => simp at effectMem

theorem DoneBacked.of_repairMove {replica next : Replica S} {trace effects : List Effect}
    (backed : DoneBacked replica trace) (move : RepairMove replica next effects) :
    DoneBacked next (trace ++ effects) := by
  intro effect effectMem sender view round historyHash isDone
  obtain ⟨config_eq, grows⟩ := repairCommitMsgs_of_repairMove move
  have counted : replica.config.byzQuorum ≤
      (senders (Message.isRepairCommitFor view round historyHash)
        replica.repairCommitMsgs).card := by
    rcases List.mem_append.mp effectMem with old | new
    · exact backed effect old sender view round historyHash isDone
    · exact quorum_of_emitted_done move new isDone
  rw [config_eq]
  exact counted.trans (Finset.card_le_card (senders_mono grows))

variable {config : Config} {nodeId : NodeId} {kvStore : S} {history : History S}

/-- The configuration is never written, not even while a call is being served. -/
theorem config_of_visits (run : LocalRun config nodeId kvStore history) {replica : Replica S}
    (visits : history.Visits replica) : replica.config = config := by
  refine run.visits_invariant (P := fun replica => replica.config = config) rfl ?_ ?_ visits
  · intro replica msg config_eq
    exact (QuietStep.store replica msg).config.trans config_eq
  · intro input replica cue next effects config_eq guard performs
    exact (repairCommitMsgs_of_repairMove (.of_perform guard performs)).1.trans config_eq

theorem config_of_localRun (run : LocalRun config nodeId kvStore history) :
    history.replica.config = config :=
  config_of_visits run (.inl rfl)

/-- Neither is the node id. -/
theorem nodeId_of_visits (run : LocalRun config nodeId kvStore history) {replica : Replica S}
    (visits : history.Visits replica) : replica.nodeId = nodeId := by
  refine run.visits_invariant (P := fun replica => replica.nodeId = nodeId) rfl ?_ ?_ visits
  · intro replica msg nodeId_eq
    exact (QuietStep.store replica msg).nodeId.trans nodeId_eq
  · intro input replica cue next effects nodeId_eq guard performs
    have move := RepairMove.of_perform guard performs
    cases move with
    | quiet quiet _ => exact quiet.nodeId.trans nodeId_eq
    | _ => exact nodeId_eq

/-- A replica that applied a history has stored a quorum of commit votes for it. -/
theorem doneBacked_of_localRun (run : LocalRun config nodeId kvStore history) :
    DoneBacked history.replica history.effects := by
  refine run.repair_invariant (P := DoneBacked) ?_ DoneBacked.of_repairMove
  intro effect effectMem
  simp at effectMem

/-- A replica casts one commit vote in each round. -/
theorem commitVote_unique (run : LocalRun config nodeId kvStore history)
    {round view view' hist hist' : UInt64} {sender sender' : NodeId}
    (first : .repairCommit sender view round hist ∈ history.messages)
    (second : .repairCommit sender' view' round hist' ∈ history.messages) :
    view = view' ∧ hist = hist' := by
  rcases List.mem_map.mp first with ⟨effect, effectMem, isCommit⟩
  rcases List.mem_map.mp second with ⟨effect', effectMem', isCommit'⟩
  have same : effect = effect' := (emitted_of_localRun run).once.commit.eq_of_slot
    effectMem effectMem' (commitSlot_eq_some_iff.mpr ⟨_, _, _, isCommit⟩)
    (commitSlot_eq_some_iff.mpr ⟨_, _, _, isCommit'⟩)
  rw [same, isCommit'] at isCommit
  cases isCommit
  exact ⟨rfl, rfl⟩

end Raspen
