import Raspen.Consensus.Replica

/-!
# Atomic moves of a call

Each call is a chain of atomic moves: storing the delivered message, and
performing a cue whose guard passed.  `Guard` collects, for every cue, the guard
of the source that raises it.
-/

namespace Raspen

open Raspen.Transition

variable {S : Type} [KvStoreOps S]

/-- The source guard behind each cue, for the input being handled. -/
def Guard (input : Input) (replica : Replica S) : Cue → Prop
  | .speculate logIdx =>
      ∃ order msg, input = .message order msg ∧ canSpeculate replica msg = some logIdx
  | .sendSync logIdx =>
      canSendSyncThreshold replica = some logIdx ∨
        ∃ timer, input = .event timer ∧ canSendSyncOnEvent replica timer = some logIdx
  | .formCheckpoint logIdx => canFormCheckpoint replica = some logIdx
  | .enterAlign chkptIdx => canEnterAlign replica = some chkptIdx
  | .stateRequest requester =>
      ∃ order msg, input = .message order msg ∧ canStateRequest msg = some requester
  | .stateReply chkptIdx =>
      ∃ order msg, input = .message order msg ∧ canStateReply replica msg = some chkptIdx
  | .conflictProof logIdx => canConflictProof replica = some logIdx
  | .chkptTimeout logIdx =>
      ∃ timer, input = .event timer ∧ canChkptTimeout replica timer = some logIdx
  | .timeoutProof logIdx => canTimeoutProof replica = some logIdx
  | .enterRepair round =>
      ∃ order msg, input = .message order msg ∧ canEnterRepair replica msg = some round
  | .broadcastHistory historyHash => canBroadcastHistory replica = some historyHash
  | .repairPrepare historyHash =>
      ∃ order msg, input = .message order msg ∧
        canRepairPrepare order replica = some historyHash
  | .repairCommit historyHash => canRepairCommit replica = some historyHash
  | .applyRepair historyHash => canApplyRepair replica = some historyHash
  | .repairDoneCatchup round => canRepairDoneCatchup replica = some round
  | .viewChange newView =>
      ∃ timer, input = .event timer ∧ canViewChange replica timer = some newView

/-- Every cue a stage raises has passed its guard. -/
theorem guard_of_listen {input : Input} {stage : ReplicaStage S} {replica : Replica S} {cue : Cue}
    (stageMem : stage ∈ input.stages) (listens : stage.listen replica = some cue) :
    Guard input replica cue := by
  cases input with
  | message order msg =>
      simp only [Input.stages, normalStages, voteStages, exitStages, List.cons_append,
        List.nil_append, List.mem_cons, List.not_mem_nil, or_false] at stageMem
      rcases stageMem with rfl | rfl | rfl | rfl | rfl | rfl | rfl | rfl | rfl | rfl | rfl | rfl |
        rfl | rfl <;>
      rcases Option.map_eq_some_iff.mp listens with ⟨value, guard, rfl⟩
      · exact ⟨order, msg, rfl, guard⟩
      · exact .inl guard
      · exact guard
      · exact guard
      · exact guard
      · exact guard
      · exact ⟨order, msg, rfl, guard⟩
      · exact ⟨order, msg, rfl, guard⟩
      · exact ⟨order, msg, rfl, guard⟩
      · exact guard
      · exact ⟨order, msg, rfl, guard⟩
      · exact guard
      · exact guard
      · exact guard
  | event timer =>
      simp only [Input.stages, eventStages, List.mem_cons, List.not_mem_nil, or_false] at stageMem
      rcases stageMem with rfl | rfl | rfl <;>
      rcases Option.map_eq_some_iff.mp listens with ⟨value, guard, rfl⟩
      · exact .inr ⟨timer, rfl, guard⟩
      · exact ⟨timer, rfl, guard⟩
      · exact ⟨timer, rfl, guard⟩

/-- A stage stores the delivered message or nothing. -/
theorem store_of_mem_stages {input : Input} {stage : ReplicaStage S}
    (stageMem : stage ∈ input.stages) (replica : Replica S) :
    stage.store replica = replica ∨
      ∃ order msg, input = .message order msg ∧ stage.store replica = replica.store msg := by
  cases input with
  | message order msg =>
      have storeIf_cases : ∀ pattern : Message → Bool,
          replica.storeIf pattern msg = replica ∨
            ∃ order' msg', Input.message order msg = .message order' msg' ∧
              replica.storeIf pattern msg = replica.store msg' := by
        intro pattern
        by_cases matched : pattern msg = true
        · exact .inr ⟨order, msg, rfl, if_pos matched⟩
        · exact .inl (if_neg matched)
      simp only [Input.stages, normalStages, voteStages, exitStages, List.cons_append,
        List.nil_append, List.mem_cons, List.not_mem_nil, or_false] at stageMem
      rcases stageMem with rfl | rfl | rfl | rfl | rfl | rfl | rfl | rfl | rfl | rfl | rfl | rfl |
        rfl | rfl <;>
      first
        | exact .inl rfl
        | exact storeIf_cases _
  | event timer =>
      simp only [Input.stages, eventStages, List.mem_cons, List.not_mem_nil, or_false] at stageMem
      rcases stageMem with rfl | rfl | rfl <;> exact .inl rfl

/-- The kinds of message each handler emits. -/
def Cue.emits : Cue → Message → Bool
  | .speculate _, .specReply .. => true
  | .sendSync _, .sync .. => true
  | .formCheckpoint _, .checkpoint .. => true
  | .enterAlign _, .stateRequest .. => true
  | .stateRequest _, .stateReply .. => true
  | .conflictProof _, .conflictProof .. => true
  | .conflictProof _, .logMsg .. => true
  | .chkptTimeout _, .timeoutMsg .. => true
  | .timeoutProof _, .timeoutProof .. => true
  | .timeoutProof _, .logMsg .. => true
  | .enterRepair _, .logMsg .. => true
  | .broadcastHistory _, .repairHistory .. => true
  | .repairPrepare _, .repairPrepare .. => true
  | .repairCommit _, .repairCommit .. => true
  | .applyRepair _, .repairDone .. => true
  | .applyRepair _, .committedReply .. => true
  | .viewChange _, .logMsg .. => true
  | _, _ => false

/-- A handler emits messages of its own kinds only. -/
theorem emits_of_perform {replica next : Replica S} {cue : Cue} {effects : List Effect}
    (performs : perform replica cue = some (next, effects)) :
    ∀ effect ∈ effects, cue.emits effect.message = true := by
  cases cue with
  | speculate logIdx =>
      rcases handleSpeculate_eq_some performs with ⟨_, _, _, _, _, _, _, rfl⟩
      simp [Cue.emits, Effect.message]
  | stateReply chkptIdx =>
      rcases handleStateReply_eq_some performs with ⟨_, _, _, _, _, rfl⟩
      simp
  | applyRepair historyHash =>
      rcases handleApplyRepair_eq_some performs with ⟨_, _, _, _, _, rfl⟩
      simp [Cue.emits, Effect.message]
  | repairDoneCatchup round =>
      rcases perform_repairDoneCatchup_eq_some performs with ⟨_, _, _, rfl⟩
      simp
  | viewChange newView =>
      rcases perform_viewChange_eq_some performs with ⟨view, _, _, rfl⟩
      simp [Cue.emits, logMsgEffect, Effect.message]
  | _ =>
      cases performs
      simp [Cue.emits, logMsgEffect, Effect.message]

/-- The atomic moves of a call on `input`. -/
inductive Move (input : Input) (replica : Replica S) : Replica S → List Effect → Prop
  | idle : Move input replica replica []
  | store {order : HashOrder} {msg : Message} :
      input = .message order msg → Move input replica (replica.store msg) []
  | perform {cue : Cue} {next : Replica S} {effects : List Effect} :
      Guard input replica cue → perform replica cue = some (next, effects) →
      Move input replica next effects

/-- Storing in a stage of the input is a move. -/
theorem Move.of_store {input : Input} {stage : ReplicaStage S} (stageMem : stage ∈ input.stages)
    (replica : Replica S) : Move input replica (stage.store replica) [] := by
  rcases store_of_mem_stages stageMem replica with same | ⟨order, msg, rfl, stored⟩
  · rw [same]
    exact .idle
  · rw [stored]
    exact .store rfl

theorem Move.of_stageMove {input : Input} {stages : List (ReplicaStage S)}
    (sub : stages ⊆ input.stages) {replica next : Replica S} {effects : List Effect}
    (move : StageMove Raspen.perform stages replica next effects) :
    Move input replica next effects := by
  cases move with
  | store stageMem => exact .of_store (sub stageMem) replica
  | perform stageMem listens performs =>
      exact .perform (guard_of_listen (sub stageMem) listens) performs

/-- A run of some of the input's stages is a chain of moves. -/
theorem moves_of_runStages {input : Input} {stages : List (ReplicaStage S)}
    (sub : stages ⊆ input.stages) {replica next : Replica S} {effects : List Effect}
    (run : runStages perform stages replica = some (next, effects)) :
    Chain (Move input) replica next effects :=
  (chain_of_runStages run).mono (Move.of_stageMove sub)

/-- A call is a chain of moves. -/
theorem moves_of_step {replica next : Replica S} {input : Input} {effects : List Effect}
    (steps : step replica input = some (next, effects)) :
    Chain (Move input) replica next effects :=
  moves_of_runStages (List.Subset.refl _) (step_eq_runStages replica input ▸ steps)

end Raspen
