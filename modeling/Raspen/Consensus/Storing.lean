import Raspen.Consensus.Rounds
import Raspen.Transition.Lockstep

/-!
# Storing a message

The handlers neither read nor write a message set, so a message may be stored
before a handler runs or after it.  What the guards see of a stored message is
filtered by its round.
-/

namespace Raspen

open KvStoreOps Raspen.Transition

variable {S : Type}

/-- The `round` field of the messages whose guards compare it with the replica's
round. -/
def Message.inRound : Message → Option UInt64
  | .sync _ round .. | .checkpoint _ round .. | .timeoutMsg _ round _ | .timeoutProof round _
  | .conflictProof round _ | .logMsg _ _ round _ | .repairHistory _ _ round _
  | .repairPrepare _ _ round _ | .repairCommit _ _ round _ | .repairDone _ _ round _ => some round
  | .speculate .. | .specReply .. | .stateRequest .. | .stateReply .. | .committedReply .. => none

namespace Message

/-- A pattern that accepts messages of one round only. -/
def OfRound (round : UInt64) (pattern : Message → Bool) : Prop :=
  ∀ msg, pattern msg = true → msg.inRound = some round

section Patterns

variable {view round logIdx historyHash : UInt64} {logHash : Hash}

theorem ofRound_isSyncAt : OfRound round (isSyncAt round logIdx) := by
  intro msg accepted
  cases msg <;> simp_all [isSyncAt, inRound]

theorem ofRound_isSyncFor : OfRound round (isSyncFor round logIdx logHash) := by
  intro msg accepted
  cases msg <;> simp_all [isSyncFor, inRound]

theorem ofRound_isCheckpointAt : OfRound round (isCheckpointAt round logIdx) := by
  intro msg accepted
  cases msg <;> simp_all [isCheckpointAt, inRound]

theorem ofRound_isTimeoutAt : OfRound round (isTimeoutAt round logIdx) := by
  intro msg accepted
  cases msg <;> simp_all [isTimeoutAt, inRound]

theorem ofRound_isRepairHistoryAt : OfRound round (isRepairHistoryAt view round) := by
  intro msg accepted
  cases msg <;> simp_all [isRepairHistoryAt, inRound]

theorem ofRound_isRepairPrepareFor : OfRound round (isRepairPrepareFor view round historyHash) := by
  intro msg accepted
  cases msg <;> simp_all [isRepairPrepareFor, inRound]

theorem ofRound_isRepairCommitFor : OfRound round (isRepairCommitFor view round historyHash) := by
  intro msg accepted
  cases msg <;> simp_all [isRepairCommitFor, inRound]

theorem ofRound_isRepairDoneAt : OfRound round (isRepairDoneAt view round) := by
  intro msg accepted
  cases msg <;> simp_all [isRepairDoneAt, inRound]

theorem ofRound_historyFor : OfRound round fun msg => (historyFor view round msg).isSome := by
  intro msg accepted
  rcases Option.isSome_iff_exists.mp accepted with ⟨historyHash, accepted⟩
  rcases historyFor_eq_some_iff.mp accepted with ⟨sender, rfl⟩
  rfl

end Patterns

end Message

/-! ## Storing and handling commute -/

theorem store_comm (replica : Replica S) (first second : Message) :
    (replica.store first).store second = (replica.store second).store first := by
  cases first <;> cases second <;> simp [Replica.store, Finset.insert_comm]

theorem store_idem (replica : Replica S) (msg : Message) :
    (replica.store msg).store msg = replica.store msg := by
  cases msg <;> simp [Replica.store]

variable [KvStoreOps S]

theorem newEntry_store (replica : Replica S) (msg : Message) (logIdx : UInt64) :
    newEntry (replica.store msg) logIdx = newEntry replica logIdx := by
  simp [newEntry]

/-- A handler does the same whether a message is stored before it or after it. -/
theorem perform_store (replica : Replica S) (msg : Message) (cue : Cue) :
    perform (replica.store msg) cue =
      (perform replica cue).map fun ended => (ended.1.store msg, ended.2) := by
  cases cue with
  | speculate logIdx =>
      simp only [perform, handleSpeculate, Replica.store_kvStore, Replica.store_kvSize,
        newEntry_store]
      cases (put replica.kvStore logIdx (newEntry replica logIdx)).toOption with
      | none => rfl
      | some kvStore =>
          simp only [Option.bind_eq_bind, Option.bind_some]
          cases (hashAt kvStore logIdx).toOption with
          | none => rfl
          | some newHash =>
              cases addU64 replica.kvSize 1 with
              | none => rfl
              | some kvSize => cases msg <;> rfl
  | stateReply chkptIdx =>
      simp only [perform, handleStateReply, Replica.store_kvStore]
      cases (rebuildFromEntries replica.kvStore (syntheticEntries (chkptIdx.toNat + 1))).toOption
      with
      | none => rfl
      | some kvStore =>
          cases addU64 chkptIdx 1 with
          | none => rfl
          | some kvSize => cases msg <;> rfl
  | applyRepair historyHash =>
      simp only [perform, handleApplyRepair, Replica.store_kvStore, Replica.store_round]
      cases mergedStore replica.kvStore historyHash with
      | none => rfl
      | some kvStore =>
          cases addU64 replica.round 1 with
          | none => rfl
          | some round => cases msg <;> rfl
  | repairDoneCatchup round =>
      simp only [perform, handleRepairDoneCatchup, Replica.store_round]
      cases addU64 replica.round 1 with
      | none => rfl
      | some round => cases msg <;> rfl
  | viewChange newView =>
      cases newView with
      | none => rfl
      | some view => cases msg <;> rfl
  | _ => cases msg <;> rfl

/-- No handler turns the round back. -/
theorem round_le_of_perform {replica next : Replica S} {cue : Cue} {effects : List Effect}
    (performs : perform replica cue = some (next, effects)) : replica.round ≤ next.round := by
  cases exits : cue.isExit with
  | false => exact UInt64.le_of_eq (round_of_perform exits performs).1.symm
  | true =>
      have advanced := toNat_of_addU64 (exited_of_perform exits performs).round
      rw [UInt64.le_iff_toNat_le]
      omega

/-! ## What the guards read of a past round -/

/-- `msg` belongs to a round that the replica has left. -/
def Replica.Left (replica : Replica S) (msg : Message) : Prop :=
  ∃ round, msg.inRound = some round ∧ round < replica.round

section Guards

variable {replica : Replica S} {msg : Message}

omit [KvStoreOps S] in
/-- A pattern of the current round rejects a message of a past one. -/
theorem Replica.Left.rejects {pattern : Message → Bool} (past : replica.Left msg)
    (ofRound : Message.OfRound replica.round pattern) : pattern msg = false := by
  by_contra accepted
  rcases past with ⟨round, isIn, before⟩
  rw [ofRound msg (Bool.eq_true_of_not_eq_false accepted)] at isIn
  cases isIn
  exact absurd before (UInt64.lt_irrefl _)

omit [KvStoreOps S] in
/-- A search in the current round does not find a stored message of a past one. -/
theorem filter_of_left {stored : Bool} {msgs : Finset Message} {pattern : Message → Bool}
    (past : replica.Left msg) (ofRound : Message.OfRound replica.round pattern) :
    (if stored then insert msg msgs else msgs).filter (fun msg => pattern msg) =
      msgs.filter fun msg => pattern msg := by
  cases stored with
  | false => rfl
  | true => simp [Finset.filter_insert, past.rejects ofRound]

omit [KvStoreOps S] in
theorem canSendSyncThreshold_store :
    canSendSyncThreshold (replica.store msg) = canSendSyncThreshold replica := by
  simp [canSendSyncThreshold]

theorem canFormCheckpoint_of_left (past : replica.Left msg) :
    canFormCheckpoint (replica.store msg) = canFormCheckpoint replica := by
  simp [canFormCheckpoint, Replica.store_syncMsgs, filter_of_left past Message.ofRound_isSyncFor]

omit [KvStoreOps S] in
theorem canEnterAlign_of_left (past : replica.Left msg) :
    canEnterAlign (replica.store msg) = canEnterAlign replica := by
  simp [canEnterAlign, Replica.store_chkptMsgs, filter_of_left past Message.ofRound_isCheckpointAt]

theorem canConflictProof_of_left (past : replica.Left msg) :
    canConflictProof (replica.store msg) = canConflictProof replica := by
  simp [canConflictProof, Replica.store_syncMsgs, filter_of_left past Message.ofRound_isSyncAt,
    filter_of_left past Message.ofRound_isSyncFor]

omit [KvStoreOps S] in
theorem canTimeoutProof_of_left (past : replica.Left msg) :
    canTimeoutProof (replica.store msg) = canTimeoutProof replica := by
  simp [canTimeoutProof, Replica.store_timeoutMsgs, filter_of_left past Message.ofRound_isTimeoutAt]

omit [KvStoreOps S] in
theorem logSenders_of_left {view : UInt64} (past : replica.Left msg) :
    logSenders view replica.round (replica.store msg).logMsgs =
      logSenders view replica.round replica.logMsgs := by
  cases msg with
  | logMsg sender msgView round logHash =>
      rcases past with ⟨_, isIn, before⟩
      cases isIn
      have other := UInt64.ne_of_lt before
      simp [Replica.store, logSenders, Finset.biUnion_insert, other]
  | _ => rfl

omit [KvStoreOps S] in
theorem canBroadcastHistory_of_left (past : replica.Left msg) :
    canBroadcastHistory (replica.store msg) = canBroadcastHistory replica := by
  simp [canBroadcastHistory, isLeader_store, logSenders_of_left past]

omit [KvStoreOps S] in
theorem canRepairCommit_of_left (past : replica.Left msg) :
    canRepairCommit (replica.store msg) = canRepairCommit replica := by
  simp [canRepairCommit, Replica.store_repairPrepareMsgs,
    filter_of_left past Message.ofRound_isRepairPrepareFor]

omit [KvStoreOps S] in
theorem canApplyRepair_of_left (past : replica.Left msg) :
    canApplyRepair (replica.store msg) = canApplyRepair replica := by
  simp [canApplyRepair, Replica.store_repairCommitMsgs,
    filter_of_left past Message.ofRound_isRepairCommitFor]

omit [KvStoreOps S] in
theorem canRepairDoneCatchup_of_left (past : replica.Left msg) :
    canRepairDoneCatchup (replica.store msg) = canRepairDoneCatchup replica := by
  simp [canRepairDoneCatchup, Replica.store_repairHistoryMsgs, Replica.store_repairDoneMsgs,
    filter_of_left past Message.ofRound_isRepairHistoryAt,
    filter_of_left past Message.ofRound_isRepairDoneAt]

end Guards

end Raspen
