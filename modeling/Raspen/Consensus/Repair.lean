import Raspen.Consensus.Alignment
import Mathlib.Data.Finset.Union

/-!
# REPAIR agreement sub-protocol

Leader proposal, two rounds of voting, and the two exits into the next round.
The agreed history is abstract in the source: a history hash is the size of the
merged log.
-/

namespace Raspen

open KvStoreOps Raspen.Transition

variable {S : Type}

/-! ## Proposing and voting -/

/-- Distinct senders of the LOG messages for `(view, round)`. -/
def logSenders (view round : UInt64) (msgs : Finset Message) : Finset NodeId :=
  msgs.biUnion fun msg =>
    match msg with
    | .logMsg sender v r _ => if v = view ∧ r = round then {sender} else ∅
    | _ => ∅

/-- The number of LOG senders, when the leader has collected `byz_quorum`. -/
def canBroadcastHistory (replica : Replica S) : Option UInt64 :=
  if replica.phase ≠ .collectingLogs then none
  else if ¬replica.isLeader then none
  else
    let senders := logSenders replica.view replica.round replica.logMsgs
    if replica.config.byzQuorum ≤ senders.card then some (UInt64.ofNat senders.card) else none

/-- Propose a REPAIR-HISTORY and advance to PreparePhase. -/
def handleBroadcastHistory (replica : Replica S) (historyHash : UInt64) : Option (Outcome S) :=
  some ({ replica with phase := .preparePhase, proposedHistoryHash := historyHash },
    [.broadcast (.repairHistory replica.nodeId replica.view replica.round historyHash)])

/-- Process an incoming LOG: store it and check the leader's quorum. -/
def onReceiveLogMsg (msg : Message) : ReplicaStage S where
  store := Replica.storeIf Message.isLogMsg msg
  listen replica := (canBroadcastHistory replica).map .broadcastHistory

/-- The history hash of a REPAIR-HISTORY for `(view, round)`. -/
def historyFor (view round : UInt64) : Message → Option UInt64
  | .repairHistory _ v r historyHash =>
      if v = view ∧ r = round then some historyHash else none
  | _ => none

theorem historyFor_eq_some_iff {view round historyHash : UInt64} {msg : Message} :
    historyFor view round msg = some historyHash ↔
      ∃ sender, msg = .repairHistory sender view round historyHash := by
  cases msg <;> simp [historyFor, and_assoc]

/-- A history hash stored for the current view and round; its sender is not
checked against the leader. -/
def canRepairPrepare (order : HashOrder) (replica : Replica S) : Option UInt64 :=
  if replica.phase ≠ .collectingLogs ∧ replica.phase ≠ .preparePhase then none
  else order.findMap replica.repairHistoryMsgs (historyFor replica.view replica.round)

/-- Vote for the proposed history hash and advance to PreparePhase. -/
def handleRepairPrepare (replica : Replica S) (historyHash : UInt64) : Option (Outcome S) :=
  some ({ replica with phase := .preparePhase, proposedHistoryHash := historyHash },
    [.broadcast (.repairPrepare replica.nodeId replica.view replica.round historyHash)])

/-- Process an incoming REPAIR-HISTORY: store it and check the prepare vote. -/
def onReceiveRepairHistory (order : HashOrder) (msg : Message) : ReplicaStage S where
  store := Replica.storeIf Message.isRepairHistory msg
  listen replica := (canRepairPrepare order replica).map .repairPrepare

/-- The proposed hash, when `byz_quorum` REPAIR-PREPAREs for it are stored. -/
def canRepairCommit (replica : Replica S) : Option UInt64 :=
  if replica.phase ≠ .preparePhase then none
  else
    let hist := replica.proposedHistoryHash
    let count := (replica.repairPrepareMsgs.filter
      (·.isRepairPrepareFor replica.view replica.round hist)).card
    if replica.config.byzQuorum ≤ count then some hist else none

/-- Broadcast a REPAIR-COMMIT vote and advance to CommitPhase. -/
def handleRepairCommit (replica : Replica S) (historyHash : UInt64) : Option (Outcome S) :=
  some ({ replica with phase := .commitPhase },
    [.broadcast (.repairCommit replica.nodeId replica.view replica.round historyHash)])

/-- Process an incoming REPAIR-PREPARE: store it and check the commit vote. -/
def onReceiveRepairPrepare (msg : Message) : ReplicaStage S where
  store := Replica.storeIf Message.isRepairPrepare msg
  listen replica := (canRepairCommit replica).map .repairCommit

/-! ## Leaving REPAIR -/

/-- The proposed hash, when `byz_quorum` REPAIR-COMMITs for it are stored. -/
def canApplyRepair (replica : Replica S) : Option UInt64 :=
  if replica.phase ≠ .commitPhase then none
  else
    let hist := replica.proposedHistoryHash
    let count := (replica.repairCommitMsgs.filter
      (·.isRepairCommitFor replica.view replica.round hist)).card
    if replica.config.byzQuorum ≤ count then some hist else none

/-- The log that an agreed history installs.  An empty history does not rebuild
the store. -/
def mergedStore [KvStoreOps S] (kvStore : S) (mergedSize : UInt64) : Option S :=
  if 0 < mergedSize then
    (rebuildFromEntries kvStore (syntheticEntries mergedSize.toNat)).toOption
  else
    some kvStore

/-- Apply the merged history, advance the round, and broadcast REPAIR-DONE and
COMMITTED-REPLY. -/
def handleApplyRepair [KvStoreOps S] (replica : Replica S) (historyHash : UInt64) :
    Option (Outcome S) := do
  let mergedSize := historyHash
  let kvStore ← mergedStore replica.kvStore mergedSize
  let round ← addU64 replica.round 1
  pure ({ replica with
    kvStore := kvStore
    phase := .speculative
    round := round
    startIdx := mergedSize
    kvSize := mergedSize
    inRepair := false
    proposedHistoryHash := 0 },
    [.broadcast (.repairDone replica.nodeId replica.view replica.round historyHash),
      .broadcast (.committedReply replica.nodeId replica.round replica.kvSize)])

/-- Process an incoming REPAIR-COMMIT: store it and check whether to apply. -/
def onReceiveRepairCommit (msg : Message) : ReplicaStage S where
  store := Replica.storeIf Message.isRepairCommit msg
  listen replica := (canApplyRepair replica).map .applyRepair

/-- The current round, when f+1 REPAIR-DONEs and a REPAIR-HISTORY for the
current view are stored. -/
def canRepairDoneCatchup (replica : Replica S) : Option UInt64 :=
  if replica.phase = .collectingLogs ∨ replica.phase = .preparePhase ∨
      replica.phase = .commitPhase then
    let doneCount :=
      (replica.repairDoneMsgs.filter (·.isRepairDoneAt replica.view replica.round)).card
    let hasHist := (replica.repairHistoryMsgs.filter
      (·.isRepairHistoryAt replica.view replica.round)).Nonempty
    if replica.config.fPlus1 ≤ doneCount ∧ hasHist then some replica.round else none
  else none

/-- Exit REPAIR and advance the round without replaying log changes.  The round
argument is unused. -/
def handleRepairDoneCatchup (replica : Replica S) (_round : UInt64) : Option (Outcome S) := do
  let round ← addU64 replica.round 1
  pure ({ replica with
    phase := .speculative
    round := round
    startIdx := replica.kvSize
    inRepair := false
    proposedHistoryHash := 0 }, [])

/-- Process an incoming REPAIR-DONE: store it and check the catch-up. -/
def onReceiveRepairDone (msg : Message) : ReplicaStage S where
  store := Replica.storeIf Message.isRepairDone msg
  listen replica := (canRepairDoneCatchup replica).map .repairDoneCatchup

/-! ## View change -/

/-- The next view, when a `RepairViewTimeout` fires while collecting LOGs.  The
guard itself adds one to the view; an overflow there is the inner `none`. -/
def canViewChange (replica : Replica S) (event : Event) : Option (Option UInt64) :=
  if replica.phase ≠ .collectingLogs then none
  else if event = .repairViewTimeout then some (addU64 replica.view 1)
  else none

/-- Increment the view and re-broadcast a LOG message to the new leader. -/
def handleViewChange [KvStoreOps S] (replica : Replica S) (newView : UInt64) :
    Option (Outcome S) :=
  let replica := { replica with view := newView }
  some (replica, [logMsgEffect replica newView])

/-! ## Guard and handler inversion -/

theorem canBroadcastHistory_eq_some_iff {replica : Replica S} {historyHash : UInt64} :
    canBroadcastHistory replica = some historyHash ↔
      replica.phase = .collectingLogs ∧ replica.isLeader = true ∧
        replica.config.byzQuorum ≤
          (logSenders replica.view replica.round replica.logMsgs).card ∧
        historyHash =
          UInt64.ofNat (logSenders replica.view replica.round replica.logMsgs).card := by
  unfold canBroadcastHistory
  split
  · simp_all
  · split
    · simp_all
    · rename_i collecting leader
      simp only [Option.ite_none_right_eq_some, Option.some.injEq]
      constructor
      · rintro ⟨quorum, rfl⟩
        exact ⟨not_not.mp collecting, not_not.mp leader, quorum, rfl⟩
      · rintro ⟨_, _, quorum, rfl⟩
        exact ⟨quorum, rfl⟩

/-- A prepare vote is always for some stored REPAIR-HISTORY of the current view
and round. -/
theorem canRepairPrepare_eq_some {order : HashOrder} {replica : Replica S}
    {historyHash : UInt64} (votes : canRepairPrepare order replica = some historyHash) :
    (replica.phase = .collectingLogs ∨ replica.phase = .preparePhase) ∧
      ∃ sender, Message.repairHistory sender replica.view replica.round historyHash ∈
        replica.repairHistoryMsgs := by
  unfold canRepairPrepare at votes
  split at votes
  · contradiction
  · rename_i relevant
    rcases order.sound votes with ⟨msg, stored, accepted⟩
    obtain ⟨sender, rfl⟩ := historyFor_eq_some_iff.mp accepted
    exact ⟨by by_contra neither; exact relevant (not_or.mp neither), sender, stored⟩

theorem canRepairCommit_eq_some_iff {replica : Replica S} {historyHash : UInt64} :
    canRepairCommit replica = some historyHash ↔
      replica.phase = .preparePhase ∧ historyHash = replica.proposedHistoryHash ∧
        replica.config.byzQuorum ≤ (replica.repairPrepareMsgs.filter
          (·.isRepairPrepareFor replica.view replica.round historyHash)).card := by
  unfold canRepairCommit
  split
  · simp_all
  · rename_i preparing
    simp only [Option.ite_none_right_eq_some, Option.some.injEq]
    constructor
    · rintro ⟨quorum, rfl⟩
      exact ⟨not_not.mp preparing, rfl, quorum⟩
    · rintro ⟨_, rfl, quorum⟩
      exact ⟨quorum, rfl⟩

theorem canApplyRepair_eq_some_iff {replica : Replica S} {historyHash : UInt64} :
    canApplyRepair replica = some historyHash ↔
      replica.phase = .commitPhase ∧ historyHash = replica.proposedHistoryHash ∧
        replica.config.byzQuorum ≤ (replica.repairCommitMsgs.filter
          (·.isRepairCommitFor replica.view replica.round historyHash)).card := by
  unfold canApplyRepair
  split
  · simp_all
  · rename_i committing
    simp only [Option.ite_none_right_eq_some, Option.some.injEq]
    constructor
    · rintro ⟨quorum, rfl⟩
      exact ⟨not_not.mp committing, rfl, quorum⟩
    · rintro ⟨_, rfl, quorum⟩
      exact ⟨quorum, rfl⟩

/-- Whether a prepare vote is due does not depend on the iteration order. -/
theorem canRepairPrepare_eq_none {order order' : HashOrder} {replica : Replica S}
    (silent : canRepairPrepare order replica = none) : canRepairPrepare order' replica = none := by
  cases votes : canRepairPrepare order' replica with
  | none => rfl
  | some historyHash =>
      rcases canRepairPrepare_eq_some votes with ⟨relevant, sender, stored⟩
      have searched : ¬(replica.phase ≠ .collectingLogs ∧ replica.phase ≠ .preparePhase) := by
        rcases relevant with collecting | preparing
        · simp [collecting]
        · simp [preparing]
      rw [canRepairPrepare, if_neg searched] at silent
      have rejected := order.complete silent _ stored
      simp [historyFor] at rejected

theorem canRepairDoneCatchup_eq_some_iff {replica : Replica S} {round : UInt64} :
    canRepairDoneCatchup replica = some round ↔
      (replica.phase = .collectingLogs ∨ replica.phase = .preparePhase ∨
        replica.phase = .commitPhase) ∧
      replica.config.fPlus1 ≤
        (replica.repairDoneMsgs.filter (·.isRepairDoneAt replica.view replica.round)).card ∧
      (replica.repairHistoryMsgs.filter
        (·.isRepairHistoryAt replica.view replica.round)).Nonempty ∧ round = replica.round := by
  simp only [canRepairDoneCatchup, Option.ite_none_right_eq_some, Option.some.injEq, and_assoc,
    eq_comm (a := round)]

/-- The last block cannot leave REPAIR a second time. -/
theorem canRepairDoneCatchup_of_speculative {replica : Replica S}
    (speculative : replica.phase = .speculative) : canRepairDoneCatchup replica = none := by
  simp [canRepairDoneCatchup, speculative]

/-! ## What the guards read

Each vote guard reads the message set of its own category. -/

section Frames

variable {replica : Replica S} {msg : Message}

theorem isLeader_store : (replica.store msg).isLeader = replica.isLeader := by
  cases msg <;> rfl

theorem canBroadcastHistory_store (other : msg.isLogMsg = false) :
    canBroadcastHistory (replica.store msg) = canBroadcastHistory replica := by
  simp [canBroadcastHistory, isLeader_store, Replica.store_logMsgs, other]

theorem canRepairPrepare_store {order : HashOrder} (other : msg.isRepairHistory = false) :
    canRepairPrepare order (replica.store msg) = canRepairPrepare order replica := by
  simp [canRepairPrepare, Replica.store_repairHistoryMsgs, other]

theorem canRepairCommit_store (other : msg.isRepairPrepare = false) :
    canRepairCommit (replica.store msg) = canRepairCommit replica := by
  simp [canRepairCommit, Replica.store_repairPrepareMsgs, other]

theorem canApplyRepair_store (other : msg.isRepairCommit = false) :
    canApplyRepair (replica.store msg) = canApplyRepair replica := by
  simp [canApplyRepair, Replica.store_repairCommitMsgs, other]

end Frames

/-- What applying a history writes and emits. -/
theorem handleApplyRepair_eq_some [KvStoreOps S] {replica next : Replica S}
    {historyHash : UInt64} {effects : List Effect}
    (handled : handleApplyRepair replica historyHash = some (next, effects)) :
    ∃ kvStore round, addU64 replica.round 1 = some round ∧
      mergedStore replica.kvStore historyHash = some kvStore ∧
      next = { replica with
        kvStore := kvStore
        phase := .speculative
        round := round
        startIdx := historyHash
        kvSize := historyHash
        inRepair := false
        proposedHistoryHash := 0 } ∧
      effects = [.broadcast (.repairDone replica.nodeId replica.view replica.round historyHash),
        .broadcast (.committedReply replica.nodeId replica.round replica.kvSize)] := by
  simp only [handleApplyRepair, Option.bind_eq_bind, Option.bind_eq_some_iff, Option.pure_def,
    Option.some.injEq, Prod.mk.injEq] at handled
  rcases handled with ⟨kvStore, installed, round, advanced, rfl, rfl⟩
  exact ⟨kvStore, round, advanced, installed, rfl, rfl⟩

theorem handleRepairDoneCatchup_eq_some {replica next : Replica S} {oldRound : UInt64}
    {effects : List Effect}
    (handled : handleRepairDoneCatchup replica oldRound = some (next, effects)) :
    ∃ round, addU64 replica.round 1 = some round ∧
      next = { replica with
        phase := .speculative
        round := round
        startIdx := replica.kvSize
        inRepair := false
        proposedHistoryHash := 0 } ∧
      effects = [] := by
  simp only [handleRepairDoneCatchup, Option.bind_eq_bind, Option.bind_eq_some_iff,
    Option.pure_def, Option.some.injEq, Prod.mk.injEq] at handled
  rcases handled with ⟨round, advanced, rfl, rfl⟩
  exact ⟨round, advanced, rfl, rfl⟩

end Raspen
