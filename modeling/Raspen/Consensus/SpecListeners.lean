import Raspen.Consensus.Evidence

/-!
# The listeners of the specification

`specs/aspen.qnt` states the same guards over unbounded integers and over one set of
delivered messages, and it counts distinct senders where the code counts messages.
The definitions below are the specification's own; its constants are the values of
the configuration.
-/

namespace Raspen

namespace Spec

variable {S : Type}

/-- What a listener reads: the local state and every message delivered so far. -/
structure LocalContext (S : Type) where
  state : ReplicaState S
  messages : Finset Message

/-- `filterMap` on a set of messages. -/
def filterMap (messages : Finset Message) (select : Message → Option NodeId) : Finset NodeId :=
  messages.biUnion fun msg => (select msg).toFinset

/-- The leader of `view` is `NODES_ORDERED[view mod n_replicas]`. -/
def isLeader (config : Config) (node : NodeId) (view : Nat) : Bool :=
  config.nodesOrdered[view % config.nodesOrdered.length]? == some node

def timeoutSenders (messages : Finset Message) (round logIdx : Nat) : Finset NodeId :=
  filterMap messages fun msg =>
    match msg with
    | .timeoutMsg sender r li =>
        if r.toNat = round ∧ li.toNat = logIdx then some sender else none
    | _ => none

def logMsgSenders (messages : Finset Message) (view round : Nat) : Finset NodeId :=
  filterMap messages fun msg =>
    match msg with
    | .logMsg sender v r _ =>
        if v.toNat = view ∧ r.toNat = round then some sender else none
    | _ => none

def repairPrepareSenders (messages : Finset Message) (view round historyHash : Nat) :
    Finset NodeId :=
  filterMap messages fun msg =>
    match msg with
    | .repairPrepare sender v r h =>
        if v.toNat = view ∧ r.toNat = round ∧ h.toNat = historyHash then some sender else none
    | _ => none

def repairCommitSenders (messages : Finset Message) (view round historyHash : Nat) :
    Finset NodeId :=
  filterMap messages fun msg =>
    match msg with
    | .repairCommit sender v r h =>
        if v.toNat = view ∧ r.toNat = round ∧ h.toNat = historyHash then some sender else none
    | _ => none

/-- f+1 TIMEOUTs for the log top have been delivered. -/
def listenTimeoutProof (config : Config) (ctx : LocalContext S) : Finset Nat :=
  let st := ctx.state
  if st.phase = .speculative ∧ st.inRepair = false ∧ 0 < st.kvSize.toNat then
    let logIdx := st.kvSize.toNat - 1
    let timeouts := timeoutSenders ctx.messages st.round.toNat logIdx
    if config.fPlus1 ≤ timeouts.card then {logIdx} else ∅
  else ∅

/-- `byz_quorum` LOGs have been delivered to the leader. -/
def listenBroadcastHistory (config : Config) (ctx : LocalContext S) : Finset Nat :=
  let st := ctx.state
  if st.phase = .collectingLogs ∧ isLeader config st.nodeId st.view.toNat then
    let logSenders := logMsgSenders ctx.messages st.view.toNat st.round.toNat
    if config.byzQuorum ≤ logSenders.card then {logSenders.card} else ∅
  else ∅

/-- `byz_quorum` matching REPAIR-PREPAREs have been delivered. -/
def listenRepairCommit (config : Config) (ctx : LocalContext S) : Finset Nat :=
  let st := ctx.state
  if st.phase = .preparePhase then
    let prepares := repairPrepareSenders ctx.messages st.view.toNat st.round.toNat
      st.proposedHistoryHash.toNat
    if config.byzQuorum ≤ prepares.card then {st.proposedHistoryHash.toNat} else ∅
  else ∅

/-- `byz_quorum` matching REPAIR-COMMITs have been delivered. -/
def listenApplyRepair (config : Config) (ctx : LocalContext S) : Finset Nat :=
  let st := ctx.state
  if st.phase = .commitPhase then
    let commits := repairCommitSenders ctx.messages st.view.toNat st.round.toNat
      st.proposedHistoryHash.toNat
    if config.byzQuorum ≤ commits.card then {st.proposedHistoryHash.toNat} else ∅
  else ∅

/-! ## Senders selected by a pattern -/

theorem mem_filterMap_iff {messages : Finset Message} {select : Message → Option NodeId}
    {node : NodeId} :
    node ∈ filterMap messages select ↔ ∃ msg ∈ messages, select msg = some node := by
  simp [filterMap]

/-- A selection that names the sender of every matching message selects the distinct
senders of the pattern. -/
theorem filterMap_eq_senders {messages : Finset Message} {select : Message → Option NodeId}
    {pattern : Message → Bool}
    (names : ∀ msg, select msg = if pattern msg then msg.sender else none) :
    filterMap messages select = senders pattern messages := by
  ext node
  rw [mem_filterMap_iff, mem_senders_iff]
  simp only [names, Option.ite_none_right_eq_some]

theorem timeoutSenders_eq (messages : Finset Message) (round logIdx : UInt64) :
    timeoutSenders messages round.toNat logIdx.toNat =
      senders (Message.isTimeoutAt round logIdx) messages := by
  apply filterMap_eq_senders
  intro msg
  cases msg <;> simp [Message.isTimeoutAt, Message.sender, UInt64.toNat_inj]

theorem logMsgSenders_eq (messages : Finset Message) (view round : UInt64) :
    logMsgSenders messages view.toNat round.toNat =
      senders (Message.isLogMsgAt view round) messages := by
  apply filterMap_eq_senders
  intro msg
  cases msg <;> simp [Message.isLogMsgAt, Message.sender, UInt64.toNat_inj]

theorem repairPrepareSenders_eq (messages : Finset Message) (view round hist : UInt64) :
    repairPrepareSenders messages view.toNat round.toNat hist.toNat =
      senders (Message.isRepairPrepareFor view round hist) messages := by
  apply filterMap_eq_senders
  intro msg
  cases msg <;> simp [Message.isRepairPrepareFor, Message.sender, UInt64.toNat_inj, and_assoc]

theorem repairCommitSenders_eq (messages : Finset Message) (view round hist : UInt64) :
    repairCommitSenders messages view.toNat round.toNat hist.toNat =
      senders (Message.isRepairCommitFor view round hist) messages := by
  apply filterMap_eq_senders
  intro msg
  cases msg <;> simp [Message.isRepairCommitFor, Message.sender, UInt64.toNat_inj, and_assoc]

/-! ## The specification's view of a replica -/

/-- The messages a replica has stored, each in the set of its category. -/
def delivered (replica : Replica S) : Finset Message :=
  replica.syncMsgs.filter (·.isSync) ∪ replica.chkptMsgs.filter (·.isCheckpoint) ∪
    replica.timeoutMsgs.filter (·.isTimeoutMsg) ∪ replica.logMsgs.filter (·.isLogMsg) ∪
    replica.repairHistoryMsgs.filter (·.isRepairHistory) ∪
    replica.repairPrepareMsgs.filter (·.isRepairPrepare) ∪
    replica.repairCommitMsgs.filter (·.isRepairCommit) ∪
    replica.repairDoneMsgs.filter (·.isRepairDone)

/-- The context in which the specification sees a replica. -/
def contextOf (replica : Replica S) : LocalContext S :=
  ⟨replica.toReplicaState, delivered replica⟩

theorem senders_congr {pattern : Message → Bool} {first second : Finset Message}
    (same : ∀ msg, pattern msg = true → (msg ∈ first ↔ msg ∈ second)) :
    senders pattern first = senders pattern second := by
  ext node
  rw [mem_senders_iff, mem_senders_iff]
  constructor
  · rintro ⟨msg, stored, matched, sent⟩
    exact ⟨msg, (same msg matched).mp stored, matched, sent⟩
  · rintro ⟨msg, stored, matched, sent⟩
    exact ⟨msg, (same msg matched).mpr stored, matched, sent⟩

variable (replica : Replica S)

/-- A delivered message has been stored in the set of its category. -/
theorem mem_delivered_iff {msg : Message} :
    msg ∈ delivered replica ↔
      match msg with
      | .sync .. => msg ∈ replica.syncMsgs
      | .checkpoint .. => msg ∈ replica.chkptMsgs
      | .timeoutMsg .. => msg ∈ replica.timeoutMsgs
      | .logMsg .. => msg ∈ replica.logMsgs
      | .repairHistory .. => msg ∈ replica.repairHistoryMsgs
      | .repairPrepare .. => msg ∈ replica.repairPrepareMsgs
      | .repairCommit .. => msg ∈ replica.repairCommitMsgs
      | .repairDone .. => msg ∈ replica.repairDoneMsgs
      | _ => False := by
  simp only [delivered, Finset.mem_union, Finset.mem_filter]
  cases msg <;>
    simp [Message.isSync, Message.isCheckpoint, Message.isTimeoutMsg, Message.isLogMsg,
      Message.isRepairHistory, Message.isRepairPrepare, Message.isRepairCommit,
      Message.isRepairDone]

/-- The specification counts the TIMEOUTs the code counts. -/
theorem card_timeoutSenders (round logIdx : UInt64) :
    (timeoutSenders (delivered replica) round.toNat logIdx.toNat).card =
      (replica.timeoutMsgs.filter (·.isTimeoutAt round logIdx)).card := by
  rw [timeoutSenders_eq, ← Raspen.card_timeoutSenders]
  congr 1
  apply senders_congr
  intro msg matched
  obtain ⟨sender, rfl⟩ := Message.isTimeoutAt_iff.mp matched
  exact mem_delivered_iff replica

/-- The specification counts the LOG senders the leader counts. -/
theorem card_logMsgSenders (view round : UInt64) :
    (logMsgSenders (delivered replica) view.toNat round.toNat).card =
      (logSenders view round replica.logMsgs).card := by
  rw [logMsgSenders_eq, logSenders_eq_senders]
  congr 1
  apply senders_congr
  intro msg matched
  cases msg with
  | logMsg sender v r logHash => exact mem_delivered_iff replica
  | _ => contradiction

/-- The specification counts the prepare votes the code counts. -/
theorem card_repairPrepareSenders (view round hist : UInt64) :
    (repairPrepareSenders (delivered replica) view.toNat round.toNat hist.toNat).card =
      (replica.repairPrepareMsgs.filter (·.isRepairPrepareFor view round hist)).card := by
  rw [repairPrepareSenders_eq, ← card_prepareSenders]
  congr 1
  apply senders_congr
  intro msg matched
  obtain ⟨sender, rfl⟩ := Message.isRepairPrepareFor_iff.mp matched
  exact mem_delivered_iff replica

/-- The specification counts the commit votes the code counts. -/
theorem card_repairCommitSenders (view round hist : UInt64) :
    (repairCommitSenders (delivered replica) view.toNat round.toNat hist.toNat).card =
      (replica.repairCommitMsgs.filter (·.isRepairCommitFor view round hist)).card := by
  rw [repairCommitSenders_eq, ← card_commitSenders]
  congr 1
  apply senders_congr
  intro msg matched
  obtain ⟨sender, rfl⟩ := Message.isRepairCommitFor_iff.mp matched
  exact mem_delivered_iff replica

theorem isLeader_contextOf :
    isLeader replica.config replica.nodeId replica.view.toNat = replica.isLeader := by
  unfold isLeader Replica.isLeader
  cases members : replica.config.nodesOrdered with
  | nil => simp
  | cons head rest => simp

/-! ## Guards and listeners -/

theorem canTimeoutProof_refines :
    (canTimeoutProof replica).toFinset.image UInt64.toNat =
      listenTimeoutProof replica.config (contextOf replica) := by
  by_cases empty : replica.kvSize = 0
  · simp [canTimeoutProof, listenTimeoutProof, contextOf, empty]
  · have predecessor := toNat_sub_one (UInt64.pos_iff_ne_zero.mpr empty)
    have counted := card_timeoutSenders replica replica.round (replica.kvSize - 1)
    rw [predecessor.2] at counted
    unfold canTimeoutProof listenTimeoutProof
    simp only [contextOf, counted, empty, if_false, predecessor.1, and_true]
    by_cases speculative : replica.phase = .speculative
    · cases inside : replica.inRepair with
      | true => simp
      | false =>
          simp only [speculative, ne_eq, not_true_eq_false, if_false, Bool.false_eq_true, and_self,
            if_true]
          split
          · simp [predecessor.2]
          · simp
    · simp [speculative]

theorem canBroadcastHistory_refines :
    (canBroadcastHistory replica).toFinset =
      (listenBroadcastHistory replica.config (contextOf replica)).image UInt64.ofNat := by
  unfold canBroadcastHistory listenBroadcastHistory
  simp only [contextOf, card_logMsgSenders, isLeader_contextOf]
  by_cases collecting : replica.phase = .collectingLogs
  · cases leader : replica.isLeader with
    | false => simp
    | true =>
        simp only [collecting, ne_eq, not_true_eq_false, if_false, and_self, if_true]
        split <;> simp
  · simp [collecting]

theorem canRepairCommit_refines :
    (canRepairCommit replica).toFinset.image UInt64.toNat =
      listenRepairCommit replica.config (contextOf replica) := by
  unfold canRepairCommit listenRepairCommit
  simp only [contextOf, card_repairPrepareSenders]
  by_cases preparing : replica.phase = .preparePhase
  · simp only [preparing, ne_eq, not_true_eq_false, if_false, if_true]
    split <;> simp
  · simp [preparing]

theorem canApplyRepair_refines :
    (canApplyRepair replica).toFinset.image UInt64.toNat =
      listenApplyRepair replica.config (contextOf replica) := by
  unfold canApplyRepair listenApplyRepair
  simp only [contextOf, card_repairCommitSenders]
  by_cases committing : replica.phase = .commitPhase
  · simp only [committing, ne_eq, not_true_eq_false, if_false, if_true]
    split <;> simp
  · simp [committing]

/-- The LOG, PREPARE, COMMIT and TIMEOUT quorum guards return what the specification's
listeners return; the number of LOG senders is cast to a `u64`. -/
theorem quorum_guards_refine_listeners :
    (canBroadcastHistory replica).toFinset =
        (listenBroadcastHistory replica.config (contextOf replica)).image UInt64.ofNat ∧
      (canRepairCommit replica).toFinset.image UInt64.toNat =
        listenRepairCommit replica.config (contextOf replica) ∧
      (canApplyRepair replica).toFinset.image UInt64.toNat =
        listenApplyRepair replica.config (contextOf replica) ∧
      (canTimeoutProof replica).toFinset.image UInt64.toNat =
        listenTimeoutProof replica.config (contextOf replica) :=
  ⟨canBroadcastHistory_refines replica, canRepairCommit_refines replica,
    canApplyRepair_refines replica, canTimeoutProof_refines replica⟩

end Spec

end Raspen
