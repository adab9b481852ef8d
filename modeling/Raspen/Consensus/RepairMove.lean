import Raspen.Consensus.Move

/-!
# What one move can do to REPAIR

Sixteen handlers write the replica, but only eight of them touch the fields or
emit the messages of REPAIR.  `RepairMove` says once what those do; every other
move is quiet.  The REPAIR invariants are proved over these moves alone.
-/

namespace Raspen

open KvStoreOps Raspen.Transition

variable {S : Type}

/-- The three phases of REPAIR. -/
def Phase.isRepair : Phase → Bool
  | .speculative | .aligning => false
  | .collectingLogs | .preparePhase | .commitPhase => true

/-- The five message kinds of the REPAIR agreement. -/
def Message.isRepair : Message → Bool
  | .logMsg .. | .repairHistory .. | .repairPrepare .. | .repairCommit .. | .repairDone .. => true
  | _ => false

/-- Effects that carry no message of the REPAIR agreement. -/
def Quiet (effects : List Effect) : Prop :=
  ∀ effect ∈ effects, effect.message.isRepair = false

/-- A change that REPAIR does not notice: outside its phases anything may happen
to the log, inside them only the message sets grow. -/
structure QuietStep (replica next : Replica S) : Prop where
  nodeId : next.nodeId = replica.nodeId
  config : next.config = replica.config
  round : next.round = replica.round
  view : next.view = replica.view
  inRepair : next.inRepair = replica.inRepair
  proposed : next.proposedHistoryHash = replica.proposedHistoryHash
  log : (next.phase = replica.phase ∧ next.kvStore = replica.kvStore) ∨
    (next.phase.isRepair = false ∧ replica.phase.isRepair = false)
  logMsgs : replica.logMsgs ⊆ next.logMsgs
  repairHistoryMsgs : replica.repairHistoryMsgs ⊆ next.repairHistoryMsgs
  repairPrepareMsgs : replica.repairPrepareMsgs ⊆ next.repairPrepareMsgs
  repairCommitMsgs : replica.repairCommitMsgs ⊆ next.repairCommitMsgs
  repairDoneMsgs : replica.repairDoneMsgs ⊆ next.repairDoneMsgs

theorem QuietStep.refl (replica : Replica S) : QuietStep replica replica where
  nodeId := rfl
  config := rfl
  round := rfl
  view := rfl
  inRepair := rfl
  proposed := rfl
  log := .inl ⟨rfl, rfl⟩
  logMsgs := Finset.Subset.refl _
  repairHistoryMsgs := Finset.Subset.refl _
  repairPrepareMsgs := Finset.Subset.refl _
  repairCommitMsgs := Finset.Subset.refl _
  repairDoneMsgs := Finset.Subset.refl _

/-- Storing a message is quiet. -/
theorem QuietStep.store (replica : Replica S) (msg : Message) :
    QuietStep replica (replica.store msg) := by
  cases msg <;> constructor <;> simp [Replica.store, Finset.subset_insert]

theorem QuietStep.storeIf (pattern : Message → Bool) (msg : Message) (replica : Replica S) :
    QuietStep replica (replica.storeIf pattern msg) := by
  unfold Replica.storeIf
  split
  · exact .store replica msg
  · exact .refl replica

variable [KvStoreOps S]

/-- The moves of REPAIR, with the guard facts each of them rests on. -/
inductive RepairMove (replica : Replica S) : Replica S → List Effect → Prop
  | quiet {next : Replica S} {effects : List Effect} :
      QuietStep replica next → Quiet effects → RepairMove replica next effects
  | enter {proof : List Effect} :
      replica.inRepair = false → Quiet proof →
      RepairMove replica { replica with phase := .collectingLogs, inRepair := true }
        (proof ++ [logMsgEffect replica replica.view])
  | propose {historyHash : UInt64} :
      canBroadcastHistory replica = some historyHash →
      RepairMove replica
        { replica with phase := .preparePhase, proposedHistoryHash := historyHash }
        [.broadcast (.repairHistory replica.nodeId replica.view replica.round historyHash)]
  | vote {sender : NodeId} {historyHash : UInt64} :
      replica.phase = .collectingLogs ∨ replica.phase = .preparePhase →
      .repairHistory sender replica.view replica.round historyHash ∈ replica.repairHistoryMsgs →
      RepairMove replica
        { replica with phase := .preparePhase, proposedHistoryHash := historyHash }
        [.broadcast (.repairPrepare replica.nodeId replica.view replica.round historyHash)]
  | lock {historyHash : UInt64} :
      canRepairCommit replica = some historyHash →
      RepairMove replica { replica with phase := .commitPhase }
        [.broadcast (.repairCommit replica.nodeId replica.view replica.round historyHash)]
  | apply {historyHash round : UInt64} {kvStore : S} :
      canApplyRepair replica = some historyHash → addU64 replica.round 1 = some round →
      mergedStore replica.kvStore historyHash = some kvStore →
      RepairMove replica
        { replica with
          kvStore := kvStore
          phase := .speculative
          round := round
          startIdx := historyHash
          kvSize := historyHash
          inRepair := false
          proposedHistoryHash := 0 }
        [.broadcast (.repairDone replica.nodeId replica.view replica.round historyHash),
          .broadcast (.committedReply replica.nodeId replica.round replica.kvSize)]
  | catchup {oldRound round : UInt64} :
      canRepairDoneCatchup replica = some oldRound → addU64 replica.round 1 = some round →
      RepairMove replica
        { replica with
          phase := .speculative
          round := round
          startIdx := replica.kvSize
          inRepair := false
          proposedHistoryHash := 0 } []
  | changeView {view : UInt64} :
      replica.phase = .collectingLogs → addU64 replica.view 1 = some view →
      RepairMove replica { replica with view := view } [logMsgEffect replica view]

/-- A handler that emits one message outside REPAIR. -/
theorem quiet_singleton {effect : Effect} (other : effect.message.isRepair = false) :
    Quiet [effect] := by
  intro event eventMem
  rw [List.mem_singleton.mp eventMem]
  exact other

theorem quiet_nil : Quiet [] := by
  intro event eventMem
  simp at eventMem

/-- The three entries guard against being in REPAIR already. -/
theorem inRepair_of_canConflictProof {replica : Replica S} {logIdx : UInt64}
    (guard : canConflictProof replica = some logIdx) : replica.inRepair = false :=
  (canConflictProof_eq_some_iff.mp guard).2.1

omit [KvStoreOps S] in
theorem inRepair_of_canTimeoutProof {replica : Replica S} {logIdx : UInt64}
    (guard : canTimeoutProof replica = some logIdx) : replica.inRepair = false :=
  (canTimeoutProof_eq_some_iff.mp guard).2.1

omit [KvStoreOps S] in
theorem inRepair_of_canEnterRepair {replica : Replica S} {msg : Message} {round : UInt64}
    (guard : canEnterRepair replica msg = some round) : replica.inRepair = false := by
  unfold canEnterRepair at guard
  by_contra inside
  simp_all

omit [KvStoreOps S] in
theorem phase_of_canEnterAlign {replica : Replica S} {chkptIdx : UInt64}
    (guard : canEnterAlign replica = some chkptIdx) : replica.phase = .speculative := by
  unfold canEnterAlign at guard
  by_contra other
  simp_all

omit [KvStoreOps S] in
theorem canStateReply_eq_some_iff {replica : Replica S} {msg : Message} {chkptIdx : UInt64} :
    canStateReply replica msg = some chkptIdx ↔
      replica.phase = .aligning ∧
        ∃ sender chkptHash, msg = .stateReply sender chkptIdx chkptHash := by
  unfold canStateReply
  by_cases aligning : replica.phase = .aligning
  · cases msg <;> simp [aligning]
  · simp [aligning]

omit [KvStoreOps S] in
theorem canViewChange_eq_some_iff {replica : Replica S} {timer : Event}
    {newView : Option UInt64} :
    canViewChange replica timer = some newView ↔
      replica.phase = .collectingLogs ∧ timer = .repairViewTimeout ∧
        newView = addU64 replica.view 1 := by
  unfold canViewChange
  by_cases collecting : replica.phase = .collectingLogs
  · by_cases expired : timer = .repairViewTimeout <;> simp [collecting, expired, eq_comm]
  · simp [collecting]

/-- Performing a cue whose guard passed is a REPAIR move. -/
theorem RepairMove.of_perform {input : Input} {replica next : Replica S} {cue : Cue}
    {effects : List Effect} (guard : Guard input replica cue)
    (performs : perform replica cue = some (next, effects)) :
    RepairMove replica next effects := by
  cases cue with
  | speculate logIdx =>
      rcases guard with ⟨_, msg, _, guard⟩
      rcases canSpeculate_eq_some_iff.mp guard with ⟨_, speculative, _⟩
      rcases handleSpeculate_eq_some performs with ⟨kvStore, kvSize, newHash, _, _, _, rfl, rfl⟩
      refine .quiet { QuietStep.refl replica with log := .inr ?_ } (quiet_singleton rfl)
      simp [speculative, Phase.isRepair]
  | sendSync logIdx =>
      cases performs
      exact .quiet (.refl _) (quiet_singleton rfl)
  | formCheckpoint logIdx =>
      cases performs
      exact .quiet { QuietStep.refl replica with } (quiet_singleton rfl)
  | enterAlign chkptIdx =>
      have speculative := phase_of_canEnterAlign guard
      cases performs
      refine .quiet { QuietStep.refl replica with log := .inr ?_ } (quiet_singleton rfl)
      simp [speculative, Phase.isRepair]
  | stateRequest requester =>
      cases performs
      exact .quiet (.refl _) (quiet_singleton rfl)
  | stateReply chkptIdx =>
      rcases guard with ⟨_, msg, _, guard⟩
      have aligning := (canStateReply_eq_some_iff.mp guard).1
      rcases handleStateReply_eq_some performs with ⟨kvStore, kvSize, _, _, rfl, rfl⟩
      refine .quiet { QuietStep.refl replica with log := .inr ?_ } quiet_nil
      simp [aligning, Phase.isRepair]
  | conflictProof logIdx =>
      cases performs
      exact .enter (inRepair_of_canConflictProof guard) (quiet_singleton rfl)
  | chkptTimeout logIdx =>
      cases performs
      exact .quiet (.refl _) (quiet_singleton rfl)
  | timeoutProof logIdx =>
      cases performs
      exact .enter (inRepair_of_canTimeoutProof guard) (quiet_singleton rfl)
  | enterRepair round =>
      rcases guard with ⟨_, msg, _, guard⟩
      cases performs
      exact .enter (inRepair_of_canEnterRepair guard) quiet_nil
  | broadcastHistory historyHash =>
      cases performs
      exact .propose guard
  | repairPrepare historyHash =>
      rcases guard with ⟨order, msg, _, guard⟩
      rcases canRepairPrepare_eq_some guard with ⟨relevant, sender, stored⟩
      cases performs
      exact .vote relevant stored
  | repairCommit historyHash =>
      cases performs
      exact .lock guard
  | applyRepair historyHash =>
      rcases handleApplyRepair_eq_some performs with ⟨kvStore, round, advanced, installed, rfl, rfl⟩
      exact .apply guard advanced installed
  | repairDoneCatchup round =>
      rcases perform_repairDoneCatchup_eq_some performs with ⟨round, advanced, rfl, rfl⟩
      exact .catchup guard advanced
  | viewChange newView =>
      rcases guard with ⟨timer, _, guard⟩
      rcases canViewChange_eq_some_iff.mp guard with ⟨collecting, _, rfl⟩
      rcases perform_viewChange_eq_some performs with ⟨view, advanced, rfl, rfl⟩
      exact .changeView collecting advanced

/-- Every atomic move of a call is a REPAIR move. -/
theorem RepairMove.of_move {input : Input} {replica next : Replica S} {effects : List Effect}
    (move : Move input replica next effects) : RepairMove replica next effects := by
  cases move with
  | idle => exact .quiet (.refl _) quiet_nil
  | store _ => exact .quiet (.store _ _) quiet_nil
  | perform guard performs => exact .of_perform guard performs

end Raspen
