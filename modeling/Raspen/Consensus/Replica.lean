import Raspen.Consensus.FastPath
import Raspen.Consensus.Checkpoint
import Raspen.Consensus.RepairEntry
import Raspen.Consensus.Repair

/-!
# Dispatch

One call runs every guarded block of the dispatcher in the order of the source;
each block reads the state its predecessors left behind.
-/

namespace Raspen

open Raspen.Transition

variable {S : Type}

/-- One input of the replica actor.  A message comes with the iteration order
its call happens to see. -/
inductive Input
  | message (order : HashOrder) (msg : Message)
  | event (timer : Event)

/-- The message an input delivers. -/
def Input.delivered : Input → Option Message
  | .message _ msg => some msg
  | .event _ => none

/-- The blocks of `process_message` before the REPAIR agreement. -/
def normalStages [KvStoreOps S] (msg : Message) : List (ReplicaStage S) :=
  [.guard fun replica => (canSpeculate replica msg).map .speculate,
    .guard fun replica => (canSendSyncThreshold replica).map .sendSync,
    onReceiveSync msg,
    onReceiveCheckpoint msg,
    .guard fun replica => (canConflictProof replica).map .conflictProof,
    onReceiveTimeout msg,
    .guard fun replica => (canEnterRepair replica msg).map .enterRepair,
    .guard fun _ => (canStateRequest msg).map .stateRequest,
    .guard fun replica => (canStateReply replica msg).map .stateReply]

/-- The blocks of `process_message` up to the commit vote. -/
def voteStages [KvStoreOps S] (order : HashOrder) (msg : Message) : List (ReplicaStage S) :=
  [onReceiveLogMsg msg,
    onReceiveRepairHistory order msg,
    onReceiveRepairPrepare msg]

/-- The blocks of `process_message` that leave REPAIR. -/
def exitStages [KvStoreOps S] (msg : Message) : List (ReplicaStage S) :=
  [onReceiveRepairCommit msg,
    onReceiveRepairDone msg]

/-- The blocks of `handle_event`. -/
def eventStages (timer : Event) : List (ReplicaStage S) :=
  [.guard fun replica => (canSendSyncOnEvent replica timer).map .sendSync,
    .guard fun replica => (canChkptTimeout replica timer).map .chkptTimeout,
    .guard fun replica => (canViewChange replica timer).map .viewChange]

variable [KvStoreOps S]

/-- The handler that each guard invokes. -/
def perform (replica : Replica S) : Cue → Option (Outcome S)
  | .speculate logIdx => handleSpeculate replica logIdx
  | .sendSync logIdx => handleSendSync replica logIdx
  | .formCheckpoint logIdx => handleFormCheckpoint replica logIdx
  | .enterAlign chkptIdx => handleEnterAlign replica chkptIdx
  | .stateRequest requester => handleStateRequest replica requester
  | .stateReply chkptIdx => handleStateReply replica chkptIdx
  | .conflictProof logIdx => handleConflictProof replica logIdx
  | .chkptTimeout logIdx => handleChkptTimeout replica logIdx
  | .timeoutProof logIdx => handleTimeoutProof replica logIdx
  | .enterRepair round => handleEnterRepair replica round
  | .broadcastHistory historyHash => handleBroadcastHistory replica historyHash
  | .repairPrepare historyHash => handleRepairPrepare replica historyHash
  | .repairCommit historyHash => handleRepairCommit replica historyHash
  | .applyRepair historyHash => handleApplyRepair replica historyHash
  | .repairDoneCatchup round => handleRepairDoneCatchup replica round
  | .viewChange newView => newView.bind (handleViewChange replica)

theorem perform_repairDoneCatchup_eq_some {replica next : Replica S} {oldRound : UInt64}
    {effects : List Effect}
    (performs : perform replica (.repairDoneCatchup oldRound) = some (next, effects)) :
    ∃ round, addU64 replica.round 1 = some round ∧
      next = { replica with
        phase := .speculative
        round := round
        startIdx := replica.kvSize
        inRepair := false
        proposedHistoryHash := 0 } ∧
      effects = [] := by
  have handled : handleRepairDoneCatchup replica oldRound = some (next, effects) := performs
  exact handleRepairDoneCatchup_eq_some handled

theorem perform_viewChange_eq_some {replica next : Replica S} {newView : Option UInt64}
    {effects : List Effect}
    (performs : perform replica (.viewChange newView) = some (next, effects)) :
    ∃ view, newView = some view ∧ next = { replica with view := view } ∧
      effects = [logMsgEffect replica view] := by
  rcases Option.bind_eq_some_iff.mp performs with ⟨view, isNew, handled⟩
  cases handled
  exact ⟨view, isNew, rfl, rfl⟩

/-- Dispatch an inbound message to the handlers. -/
def processMessage (order : HashOrder) (replica : Replica S) (msg : Message) :
    Option (Outcome S) :=
  runStages perform (normalStages msg ++ (voteStages order msg ++ exitStages msg)) replica

/-- Dispatch a timer event to the handlers. -/
def handleEvent (replica : Replica S) (timer : Event) : Option (Outcome S) :=
  runStages perform (eventStages timer) replica

/-- Feed one input to the replica. -/
def step (replica : Replica S) : Input → Option (Outcome S)
  | .message order msg => processMessage order replica msg
  | .event timer => handleEvent replica timer

/-- The guarded blocks that one input runs through. -/
def Input.stages : Input → List (ReplicaStage S)
  | .message order msg => normalStages msg ++ (voteStages order msg ++ exitStages msg)
  | .event timer => eventStages timer

/-! ## The cues of each block -/

/-- Cues of the blocks before the REPAIR agreement. -/
def Cue.isNormal : Cue → Bool
  | .speculate _ | .sendSync _ | .formCheckpoint _ | .enterAlign _ | .conflictProof _
  | .timeoutProof _ | .enterRepair _ | .stateRequest _ | .stateReply _ => true
  | _ => false

/-- Cues of the blocks up to the commit vote. -/
def Cue.isVote : Cue → Bool
  | .broadcastHistory _ | .repairPrepare _ | .repairCommit _ => true
  | _ => false

/-- Cues of the blocks that leave REPAIR. -/
def Cue.isExit : Cue → Bool
  | .applyRepair _ | .repairDoneCatchup _ => true
  | _ => false

/-- Cues of the timers. -/
def Cue.isTimer : Cue → Bool
  | .sendSync _ | .chkptTimeout _ | .viewChange _ => true
  | _ => false

theorem isNormal_of_listen {msg : Message} {stage : ReplicaStage S}
    (stageMem : stage ∈ normalStages msg) {replica : Replica S} {cue : Cue}
    (listens : stage.listen replica = some cue) : cue.isNormal = true := by
  simp only [normalStages, List.mem_cons, List.not_mem_nil, or_false] at stageMem
  rcases stageMem with rfl | rfl | rfl | rfl | rfl | rfl | rfl | rfl | rfl <;>
  · rcases Option.map_eq_some_iff.mp listens with ⟨value, _, rfl⟩
    rfl

theorem isVote_of_listen {order : HashOrder} {msg : Message}
    {stage : ReplicaStage S} (stageMem : stage ∈ voteStages order msg) {replica : Replica S}
    {cue : Cue} (listens : stage.listen replica = some cue) : cue.isVote = true := by
  simp only [voteStages, List.mem_cons, List.not_mem_nil, or_false] at stageMem
  rcases stageMem with rfl | rfl | rfl <;>
  · rcases Option.map_eq_some_iff.mp listens with ⟨value, _, rfl⟩
    rfl

theorem isExit_of_listen {msg : Message} {stage : ReplicaStage S}
    (stageMem : stage ∈ exitStages msg) {replica : Replica S} {cue : Cue}
    (listens : stage.listen replica = some cue) : cue.isExit = true := by
  simp only [exitStages, List.mem_cons, List.not_mem_nil, or_false] at stageMem
  rcases stageMem with rfl | rfl <;>
  · rcases Option.map_eq_some_iff.mp listens with ⟨value, _, rfl⟩
    rfl

omit [KvStoreOps S] in
theorem isTimer_of_listen {timer : Event} {stage : ReplicaStage S}
    (stageMem : stage ∈ eventStages timer) {replica : Replica S} {cue : Cue}
    (listens : stage.listen replica = some cue) : cue.isTimer = true := by
  simp only [eventStages, List.mem_cons, List.not_mem_nil, or_false] at stageMem
  rcases stageMem with rfl | rfl | rfl <;>
  · rcases Option.map_eq_some_iff.mp listens with ⟨value, _, rfl⟩
    rfl

theorem step_eq_runStages (replica : Replica S) (input : Input) :
    step replica input = runStages perform input.stages replica := by
  cases input <;> rfl

end Raspen
