import Raspen.Types.State
import Raspen.Types.HashOrder
import Raspen.Transition.Pipeline

/-!
# The replica object

`Replica` is the protocol state together with the static configuration.  A
handler returns the new replica and its effects, or `none` for a panic: a failed
`expect` or a checked addition that overflows.
-/

namespace Raspen

open Raspen.Transition

/-- The core replica object. -/
structure Replica (S : Type) extends ReplicaState S where
  config : Config

/-- What a handler returns unless it panics. -/
abbrev Outcome (S : Type) := Replica S × List Effect

/-- A handler together with the value its guard returned. -/
inductive Cue
  | speculate (logIdx : UInt64)
  | sendSync (logIdx : UInt64)
  | formCheckpoint (logIdx : UInt64)
  | enterAlign (chkptIdx : UInt64)
  | stateRequest (requester : NodeId)
  | stateReply (chkptIdx : UInt64)
  | conflictProof (logIdx : UInt64)
  | chkptTimeout (logIdx : UInt64)
  | timeoutProof (logIdx : UInt64)
  | enterRepair (round : UInt64)
  | broadcastHistory (historyHash : UInt64)
  | repairPrepare (historyHash : UInt64)
  | repairCommit (historyHash : UInt64)
  | applyRepair (historyHash : UInt64)
  | repairDoneCatchup (round : UInt64)
  | viewChange (newView : Option UInt64)
  deriving DecidableEq

/-- One guarded block of the dispatcher. -/
abbrev ReplicaStage (S : Type) := Stage (Replica S) Cue

/-- The leader of a view, `nodes_ordered[view mod n]`. -/
def Config.leader (config : Config) (view : UInt64) : Option NodeId :=
  config.nodesOrdered[view.toNat % config.nodesOrdered.length]?

namespace Replica

variable {S : Type}

/-- The initial replica over a freshly opened store. -/
def new (config : Config) (nodeId : NodeId) (kvStore : S) : Replica S where
  nodeId := nodeId
  phase := .speculative
  round := 0
  view := 0
  startIdx := 0
  kvSize := 0
  kvStore := kvStore
  chkptIdx := 0
  chkptHash := Hash.zero
  etaStar := 0
  inRepair := false
  proposedHistoryHash := 0
  syncMsgs := ∅
  ackMsgs := ∅
  chkptMsgs := ∅
  timeoutMsgs := ∅
  logMsgs := ∅
  repairHistoryMsgs := ∅
  repairPrepareMsgs := ∅
  repairCommitMsgs := ∅
  repairDoneMsgs := ∅
  config := config

/-- True if this replica leads the current repair view. -/
def isLeader (replica : Replica S) : Bool :=
  let n := replica.config.nodesOrdered.length
  if n = 0 then
    false
  else
    replica.config.nodesOrdered[replica.view.toNat % n]? == some replica.nodeId

theorem isLeader_iff {replica : Replica S} :
    replica.isLeader = true ↔ replica.config.leader replica.view = some replica.nodeId := by
  unfold isLeader Config.leader
  cases members : replica.config.nodesOrdered with
  | nil => simp
  | cons head rest => simp

/-- Insert a message into the set of its category. -/
def store (replica : Replica S) (msg : Message) : Replica S :=
  match msg with
  | .sync .. => { replica with syncMsgs := insert msg replica.syncMsgs }
  | .checkpoint .. => { replica with chkptMsgs := insert msg replica.chkptMsgs }
  | .timeoutMsg .. => { replica with timeoutMsgs := insert msg replica.timeoutMsgs }
  | .logMsg .. => { replica with logMsgs := insert msg replica.logMsgs }
  | .repairHistory .. =>
      { replica with repairHistoryMsgs := insert msg replica.repairHistoryMsgs }
  | .repairPrepare .. =>
      { replica with repairPrepareMsgs := insert msg replica.repairPrepareMsgs }
  | .repairCommit .. =>
      { replica with repairCommitMsgs := insert msg replica.repairCommitMsgs }
  | .repairDone .. => { replica with repairDoneMsgs := insert msg replica.repairDoneMsgs }
  | _ => replica

/-- Store `msg` when it matches the pattern of the receiving stage. -/
def storeIf (pattern : Message → Bool) (msg : Message) (replica : Replica S) : Replica S :=
  if pattern msg then replica.store msg else replica

section Store

variable (replica : Replica S) (msg : Message)

@[simp] theorem store_phase : (replica.store msg).phase = replica.phase := by
  cases msg <;> rfl

@[simp] theorem store_round : (replica.store msg).round = replica.round := by
  cases msg <;> rfl

@[simp] theorem store_startIdx : (replica.store msg).startIdx = replica.startIdx := by
  cases msg <;> rfl

@[simp] theorem store_kvSize : (replica.store msg).kvSize = replica.kvSize := by
  cases msg <;> rfl

@[simp] theorem store_kvStore : (replica.store msg).kvStore = replica.kvStore := by
  cases msg <;> rfl

@[simp] theorem store_chkptIdx : (replica.store msg).chkptIdx = replica.chkptIdx := by
  cases msg <;> rfl

@[simp] theorem store_chkptHash : (replica.store msg).chkptHash = replica.chkptHash := by
  cases msg <;> rfl

@[simp] theorem store_view : (replica.store msg).view = replica.view := by
  cases msg <;> rfl

@[simp] theorem store_inRepair : (replica.store msg).inRepair = replica.inRepair := by
  cases msg <;> rfl

@[simp] theorem store_proposedHistoryHash :
    (replica.store msg).proposedHistoryHash = replica.proposedHistoryHash := by
  cases msg <;> rfl

@[simp] theorem store_config : (replica.store msg).config = replica.config := by
  cases msg <;> rfl

theorem store_syncMsgs :
    (replica.store msg).syncMsgs =
      if msg.isSync then insert msg replica.syncMsgs else replica.syncMsgs := by
  cases msg <;> rfl

theorem store_chkptMsgs :
    (replica.store msg).chkptMsgs =
      if msg.isCheckpoint then insert msg replica.chkptMsgs else replica.chkptMsgs := by
  cases msg <;> rfl

theorem store_timeoutMsgs :
    (replica.store msg).timeoutMsgs =
      if msg.isTimeoutMsg then insert msg replica.timeoutMsgs else replica.timeoutMsgs := by
  cases msg <;> rfl

theorem store_logMsgs :
    (replica.store msg).logMsgs =
      if msg.isLogMsg then insert msg replica.logMsgs else replica.logMsgs := by
  cases msg <;> rfl

theorem store_repairHistoryMsgs :
    (replica.store msg).repairHistoryMsgs =
      if msg.isRepairHistory then insert msg replica.repairHistoryMsgs
      else replica.repairHistoryMsgs := by
  cases msg <;> rfl

theorem store_repairPrepareMsgs :
    (replica.store msg).repairPrepareMsgs =
      if msg.isRepairPrepare then insert msg replica.repairPrepareMsgs
      else replica.repairPrepareMsgs := by
  cases msg <;> rfl

theorem store_repairCommitMsgs :
    (replica.store msg).repairCommitMsgs =
      if msg.isRepairCommit then insert msg replica.repairCommitMsgs
      else replica.repairCommitMsgs := by
  cases msg <;> rfl

theorem store_repairDoneMsgs :
    (replica.store msg).repairDoneMsgs =
      if msg.isRepairDone then insert msg replica.repairDoneMsgs else replica.repairDoneMsgs := by
  cases msg <;> rfl

variable (pattern : Message → Bool)

@[simp] theorem storeIf_phase : (replica.storeIf pattern msg).phase = replica.phase := by
  simp [storeIf, apply_ite]

@[simp] theorem storeIf_round : (replica.storeIf pattern msg).round = replica.round := by
  simp [storeIf, apply_ite]

@[simp] theorem storeIf_startIdx : (replica.storeIf pattern msg).startIdx = replica.startIdx := by
  simp [storeIf, apply_ite]

@[simp] theorem storeIf_kvSize : (replica.storeIf pattern msg).kvSize = replica.kvSize := by
  simp [storeIf, apply_ite]

@[simp] theorem storeIf_kvStore : (replica.storeIf pattern msg).kvStore = replica.kvStore := by
  simp [storeIf, apply_ite]

end Store

end Replica

/-- The LOG message a replica sends to the leader of `view`. -/
def logMsgEffect {S : Type} [KvStoreOps S] (replica : Replica S) (view : UInt64) : Effect :=
  .broadcast (.logMsg replica.nodeId view replica.round (KvStoreOps.topHash replica.kvStore))

end Raspen
