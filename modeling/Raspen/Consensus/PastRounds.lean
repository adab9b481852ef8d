import Raspen.Consensus.Inbox
import Raspen.Consensus.Phases
import Raspen.Consensus.Storing
import Raspen.Consensus.Wakeup

/-!
# Messages of past rounds

A delayed message of a finished round should do nothing but fill its message
set.  Of the ten kinds that carry a round, eight keep this promise.  The two
proofs do not: the guard that follows them into REPAIR never looks at their
round.
-/

namespace Raspen

open Raspen.Transition

variable {S : Type}

/-- The two proofs that make a receiver enter REPAIR. -/
def Message.isProof : Message → Bool
  | .timeoutProof .. | .conflictProof .. => true
  | _ => false

/-- `shadow` is `replica` with a message of a past round possibly stored.  Both are on
their way from `start`. -/
structure Shadow (start : Replica S) (msg : Message) (replica shadow : Replica S) : Prop where
  left : replica.Left msg
  histories : replica.repairHistoryMsgs = start.repairHistoryMsgs
  near : shadow = replica ∨ shadow = replica.store msg

namespace Shadow

variable {start replica shadow : Replica S} {msg : Message}

theorem storeIf (related : Shadow start msg replica shadow) (pattern : Message → Bool) :
    Shadow start msg replica (shadow.storeIf pattern msg) where
  left := related.left
  histories := related.histories
  near := by
    unfold Replica.storeIf
    split
    · right
      rcases related.near with rfl | rfl
      · rfl
      · exact store_idem _ msg
    · exact related.near

/-- A guard that does not see the message hears the same on the shadow. -/
theorem guard_eq {α : Type} {guard : Replica S → α}
    (unread : ∀ {replica : Replica S}, replica.Left msg →
      guard (replica.store msg) = guard replica)
    (related : Shadow start msg replica shadow) : guard shadow = guard replica := by
  rcases related.near with rfl | rfl
  · rfl
  · exact unread related.left

theorem core_eq (related : Shadow start msg replica shadow) :
    shadow.phase = replica.phase ∧ shadow.view = replica.view ∧ shadow.round = replica.round := by
  rcases related.near with rfl | rfl <;> simp

/-- By the time the prepare vote is due, the shadow has stored the message. -/
theorem histories_eq (related : Shadow start msg replica shadow) :
    (shadow.storeIf Message.isRepairHistory msg).repairHistoryMsgs =
      (start.store msg).repairHistoryMsgs := by
  have same := related.histories
  rcases related.near with rfl | rfl <;>
    cases msg <;> simp [Replica.storeIf, Replica.store, Message.isRepairHistory, same]

/-- The prepare vote is due on both when the two searches find the same. -/
theorem canRepairPrepare_eq {order order' : HashOrder} (related : Shadow start msg replica shadow)
    (sameSearch : ∀ accept : Message → Option UInt64, accept msg = none →
      order'.findMap (start.store msg).repairHistoryMsgs accept =
        order.findMap start.repairHistoryMsgs accept) :
    canRepairPrepare order' (shadow.storeIf Message.isRepairHistory msg) =
      canRepairPrepare order replica := by
  obtain ⟨phase, view, round⟩ := (related.storeIf Message.isRepairHistory).core_eq
  have rejects : historyFor replica.view replica.round msg = none := by
    have unseen : (historyFor replica.view replica.round msg).isSome = false :=
      related.left.rejects Message.ofRound_historyFor
    exact Option.not_isSome_iff_eq_none.mp (by simp [unseen])
  unfold canRepairPrepare
  rw [phase, view, round, related.histories_eq, sameSearch _ rejects, related.histories]

variable [KvStoreOps S]

/-- Every handler keeps the shadow a shadow and emits the same effects on both. -/
theorem performs (related : Shadow start msg replica shadow) (cue : Cue) :
    Option.Rel (Matched (Shadow start msg)) (perform replica cue) (perform shadow cue) := by
  have kept : ∀ {next effects}, perform replica cue = some (next, effects) →
      next.Left msg ∧ next.repairHistoryMsgs = start.repairHistoryMsgs := by
    intro next effects performs
    rcases related.left with ⟨round, isIn, before⟩
    have later := round_le_of_perform performs
    have same := inbox_of_perform performs
    simp only [Replica.inbox, List.cons.injEq] at same
    exact ⟨⟨round, isIn, UInt64.lt_of_lt_of_le before later⟩,
      same.2.2.2.2.2.1.trans related.histories⟩
  rcases related.near with same | stored
  · rw [same]
    cases performs : perform replica cue with
    | none => exact .none
    | some ended =>
        obtain ⟨left, histories⟩ := kept performs
        exact .some ⟨⟨left, histories, .inl rfl⟩, rfl⟩
  · rw [stored, perform_store]
    cases performs : perform replica cue with
    | none => exact .none
    | some ended =>
        obtain ⟨left, histories⟩ := kept performs
        exact .some ⟨⟨left, histories, .inr rfl⟩, rfl⟩

end Shadow

/-! ## Stages in step -/

section Stages

variable [KvStoreOps S] {start : Replica S} {msg : Message} {α : Type}

omit [KvStoreOps S] in
/-- Two guards that agree on the shadow are in step. -/
theorem lockstep_guard {heard heard' : Replica S → Option α} (cue : α → Cue)
    (same : ∀ replica shadow, Shadow start msg replica shadow → heard' shadow = heard replica) :
    Stage.Lockstep (Shadow start msg) (.guard fun replica => (heard replica).map cue)
      (.guard fun shadow => (heard' shadow).map cue) where
  store _ _ related := related
  listen replica shadow related := congrArg (Option.map cue) (same replica shadow related).symm

omit [KvStoreOps S] in
/-- A stage that does not store the other message is in step with the one that may
store this one. -/
theorem lockstep_receive {heard heard' : Replica S → Option α} {pattern : Message → Bool}
    {other : Message} (cue : α → Cue) (ignored : pattern other = false)
    (same : ∀ replica shadow, Shadow start msg replica shadow →
      heard' (shadow.storeIf pattern msg) = heard replica) :
    Stage.Lockstep (Shadow start msg)
      ⟨Replica.storeIf pattern other, fun replica => (heard replica).map cue⟩
      ⟨Replica.storeIf pattern msg, fun shadow => (heard' shadow).map cue⟩ where
  store replica shadow related := by
    simp only [Replica.storeIf, ignored]
    exact related.storeIf pattern
  listen replica shadow related := by
    simp only [Replica.storeIf, ignored]
    exact congrArg (Option.map cue) (same replica shadow related).symm

/-- The other call hears the same in every block, when its search of the histories
finds the same. -/
theorem lockstep_stages {order order' : HashOrder} {sender : NodeId} {round logIdx : UInt64}
    {logHash : Hash} (consumed : msg.isProof = false) (past : start.Left msg)
    (sameSearch : ∀ accept : Message → Option UInt64, accept msg = none →
      order'.findMap (start.store msg).repairHistoryMsgs accept =
        order.findMap start.repairHistoryMsgs accept) :
    List.Forall₂ (Stage.Lockstep (Shadow start msg))
      (Input.message order (.specReply sender round logIdx logHash)).stages
      (Input.message order' msg).stages := by
  have noSpeculate : ∀ replica : Replica S, canSpeculate replica msg = none := by
    rcases past with ⟨_, isIn, _⟩
    cases msg <;> first | contradiction | (intro; rfl)
  have noProof : ∀ replica : Replica S, canEnterRepair replica msg = none := by
    intro replica
    cases msg <;> first | contradiction | simp [canEnterRepair]
  have noRequest : canStateRequest msg = none := by
    rcases past with ⟨_, isIn, _⟩
    cases msg <;> first | contradiction | rfl
  have noReply : ∀ replica : Replica S, canStateReply replica msg = none := by
    rcases past with ⟨_, isIn, _⟩
    intro replica
    cases msg <;> first | contradiction | simp [canStateReply]
  simp only [Input.stages, normalStages, voteStages, exitStages, List.cons_append,
    List.nil_append, List.forall₂_cons, List.forall₂_nil_left_iff, and_true]
  constructor
  · exact lockstep_guard .speculate fun _ shadow _ => noSpeculate shadow
  constructor
  · exact lockstep_guard .sendSync fun _ _ related =>
      related.guard_eq fun _ => canSendSyncThreshold_store
  constructor
  · exact lockstep_receive .formCheckpoint rfl fun _ _ related =>
      (related.storeIf _).guard_eq canFormCheckpoint_of_left
  constructor
  · exact lockstep_receive .enterAlign rfl fun _ _ related =>
      (related.storeIf _).guard_eq canEnterAlign_of_left
  constructor
  · exact lockstep_guard .conflictProof fun _ _ related =>
      related.guard_eq canConflictProof_of_left
  constructor
  · exact lockstep_receive .timeoutProof rfl fun _ _ related =>
      (related.storeIf _).guard_eq canTimeoutProof_of_left
  constructor
  · apply lockstep_guard .enterRepair
    intro replica shadow _
    rw [noProof]
    simp [canEnterRepair]
  constructor
  · exact lockstep_guard .stateRequest fun _ _ _ => noRequest
  constructor
  · apply lockstep_guard .stateReply
    intro replica shadow _
    rw [noReply]
    simp [canStateReply]
  constructor
  · exact lockstep_receive .broadcastHistory rfl fun _ _ related =>
      (related.storeIf _).guard_eq canBroadcastHistory_of_left
  constructor
  · exact lockstep_receive .repairPrepare rfl fun _ _ related =>
      related.canRepairPrepare_eq sameSearch
  constructor
  · exact lockstep_receive .repairCommit rfl fun _ _ related =>
      (related.storeIf _).guard_eq canRepairCommit_of_left
  constructor
  · exact lockstep_receive .applyRepair rfl fun _ _ related =>
      (related.storeIf _).guard_eq canApplyRepair_of_left
  · exact lockstep_receive .repairDoneCatchup rfl fun _ _ related =>
      (related.storeIf _).guard_eq canRepairDoneCatchup_of_left

/-- Some block stores every message that is not a proof. -/
theorem exists_store (order : HashOrder) (consumed : msg.isProof = false)
    (past : start.Left msg) :
    ∃ stage ∈ (Input.message order msg).stages (S := S),
      ∀ replica, stage.store replica = replica.store msg := by
  have kind : msg.isSync = true ∨ msg.isCheckpoint = true ∨ msg.isTimeoutMsg = true ∨
      msg.isLogMsg = true ∨ msg.isRepairHistory = true ∨ msg.isRepairPrepare = true ∨
      msg.isRepairCommit = true ∨ msg.isRepairDone = true := by
    rcases past with ⟨_, isIn, _⟩
    cases msg <;> first
      | contradiction
      | simp [Message.isSync, Message.isCheckpoint, Message.isTimeoutMsg, Message.isLogMsg,
          Message.isRepairHistory, Message.isRepairPrepare, Message.isRepairCommit,
          Message.isRepairDone]
  simp only [Input.stages, normalStages, voteStages, exitStages, List.cons_append,
    List.nil_append]
  rcases kind with kind | kind | kind | kind | kind | kind | kind | kind
  · exact ⟨onReceiveSync msg, by simp, fun _ => if_pos kind⟩
  · exact ⟨onReceiveCheckpoint msg, by simp, fun _ => if_pos kind⟩
  · exact ⟨onReceiveTimeout msg, by simp, fun _ => if_pos kind⟩
  · exact ⟨onReceiveLogMsg msg, by simp, fun _ => if_pos kind⟩
  · exact ⟨onReceiveRepairHistory order msg, by simp, fun _ => if_pos kind⟩
  · exact ⟨onReceiveRepairPrepare msg, by simp, fun _ => if_pos kind⟩
  · exact ⟨onReceiveRepairCommit msg, by simp, fun _ => if_pos kind⟩
  · exact ⟨onReceiveRepairDone msg, by simp, fun _ => if_pos kind⟩

end Stages

/-! ## The eight kinds that are stored -/

variable [KvStoreOps S]

/-- A message that its call stores is there when the call ends. -/
theorem stored_of_processMessage {order : HashOrder} {msg : Message} {replica post : Replica S}
    {effects : List Effect} (consumed : msg.isProof = false) (past : replica.Left msg)
    (steps : processMessage order replica msg = some (post, effects)) :
    post.store msg = post := by
  rcases exists_store order consumed past with ⟨stage, stageMem, stores⟩
  have preserves : Preserves perform (Input.message order msg).stages (fun _ _ => True)
      fun state : Replica S => state.store msg = state := by
    apply preserves_stages
    · rintro state delivered isMsg _
      cases isMsg
      exact store_idem state msg
    · intro state cue next emitted stored _ _ performs
      have again := perform_store state msg cue
      rw [stored, performs] at again
      exact congrArg Prod.fst (Option.some.inj again.symm)
  apply holds_of_store stageMem ?_ preserves steps
  intro state
  rw [stores, store_idem]

/-- A call on a stored message of a past round is a call on a SPEC-REPLY that also
stores the message. -/
theorem processMessage_of_left {order order' : HashOrder} {msg : Message} {replica : Replica S}
    {sender : NodeId} {round logIdx : UInt64} {logHash : Hash} (consumed : msg.isProof = false)
    (past : replica.Left msg)
    (sameSearch : ∀ accept : Message → Option UInt64, accept msg = none →
      order'.findMap (replica.store msg).repairHistoryMsgs accept =
        order.findMap replica.repairHistoryMsgs accept) :
    processMessage order' replica msg =
      (processMessage order replica (.specReply sender round logIdx logHash)).map
        fun ended => (ended.1.store msg, ended.2) := by
  have started : Shadow replica msg replica replica := ⟨past, rfl, .inl rfl⟩
  have together : Option.Rel (Matched (Shadow replica msg))
      (processMessage order replica (.specReply sender round logIdx logHash))
      (processMessage order' replica msg) :=
    runStages_lockstep (fun _ _ cue related => related.performs cue)
      (lockstep_stages consumed past sameSearch) started
  have stored : ∀ ended ∈ processMessage order' replica msg, ended.1.store msg = ended.1 :=
    fun ended isEnd => stored_of_processMessage consumed past isEnd
  generalize processMessage order replica (.specReply sender round logIdx logHash) = plain
    at together ⊢
  generalize processMessage order' replica msg = shadowed at together stored ⊢
  cases together with
  | none => rfl
  | @some plain shadowed matched =>
      obtain ⟨related, sameEffects⟩ := matched
      have final : shadowed.1 = plain.1.store msg := by
        rcases related.near with same | stores
        · rw [← stored shadowed rfl, same]
        · exact stores
      exact congrArg some (Prod.ext final sameEffects.symm)

/-- A call on `msg` can end in exactly the ways a call on `reply` can end, except that
it stores `msg`. -/
def Inert (replica : Replica S) (msg reply : Message) : Prop :=
  ∀ outcome : Option (Outcome S),
    (∃ order, processMessage order replica msg = outcome) ↔
      ∃ order, (processMessage order replica reply).map
        (fun ended => (ended.1.store msg, ended.2)) = outcome

omit [KvStoreOps S] in
theorem filter_histories_store {replica : Replica S} {msg : Message}
    {accept : Message → Option UInt64} (rejects : accept msg = none) :
    (replica.store msg).repairHistoryMsgs.filter (fun msg => (accept msg).isSome) =
      replica.repairHistoryMsgs.filter fun msg => (accept msg).isSome := by
  cases msg with
  | repairHistory => simp [Replica.store, Finset.filter_insert, rejects]
  | _ => rfl

/-- The stored kinds are inert in a later round. -/
theorem inert_of_left {replica : Replica S} {msg : Message} {sender : NodeId}
    {round logIdx : UInt64} {logHash : Hash} (consumed : msg.isProof = false)
    (past : replica.Left msg) : Inert replica msg (.specReply sender round logIdx logHash) := by
  intro outcome
  constructor
  · rintro ⟨order, rfl⟩
    let plain := order.redirect (replica.store msg).repairHistoryMsgs replica.repairHistoryMsgs
    exact ⟨plain, (processMessage_of_left consumed past fun accept rejects =>
      (HashOrder.findMap_redirect (filter_histories_store rejects)).symm).symm⟩
  · rintro ⟨order, rfl⟩
    let shadowed := order.redirect replica.repairHistoryMsgs (replica.store msg).repairHistoryMsgs
    exact ⟨shadowed, processMessage_of_left consumed past fun accept rejects =>
      HashOrder.findMap_redirect (filter_histories_store rejects).symm⟩

/-! ## The two proofs -/

/-- The replica with the checkpoint its next call forms. -/
def checkpointed (replica : Replica S) : Replica S :=
  match canFormCheckpoint replica with
  | some logIdx =>
      { replica with chkptIdx := logIdx, chkptHash := KvStoreOps.topHash replica.kvStore }
  | none => replica

@[simp]
theorem checkpointed_phase (replica : Replica S) :
    (checkpointed replica).phase = replica.phase := by
  unfold checkpointed
  split <;> rfl

@[simp]
theorem checkpointed_round (replica : Replica S) :
    (checkpointed replica).round = replica.round := by
  unfold checkpointed
  split <;> rfl

/-- The next call enters REPAIR on the replica's own evidence, whatever it delivers. -/
def EntersAnyway (replica : Replica S) : Prop :=
  canEnterAlign (checkpointed replica) = none ∧
    (canConflictProof replica ≠ none ∨ canTimeoutProof replica ≠ none)

/-- The blocks that form a checkpoint, for a message they do not store. -/
def checkpointStages : List (ReplicaStage S) :=
  [.guard fun _ => none,
    .guard fun replica => (canSendSyncThreshold replica).map .sendSync,
    .guard fun replica => (canFormCheckpoint replica).map .formCheckpoint]

/-- The blocks that enter REPAIR on the replica's own evidence, for a message they do
not store. -/
def evidenceStages : List (ReplicaStage S) :=
  [.guard fun replica => (canEnterAlign replica).map .enterAlign,
    .guard fun replica => (canConflictProof replica).map .conflictProof,
    .guard fun replica => (canTimeoutProof replica).map .timeoutProof]

/-- The blocks before a proof is followed. -/
def frontStages : List (ReplicaStage S) :=
  checkpointStages ++ evidenceStages

/-- The block that follows a proof, and the ones after them. -/
def followStages (order : HashOrder) (msg : Message) : List (ReplicaStage S) :=
  (normalStages msg).drop 6 ++ (voteStages order msg ++ exitStages msg)

/-- No block before the entry looks at a proof. -/
theorem processMessage_of_isProof {msg : Message} (isProof : msg.isProof = true)
    (order : HashOrder) (replica : Replica S) :
    processMessage order replica msg =
      runStages perform (frontStages ++ followStages order msg) replica := by
  cases msg <;> first | contradiction | rfl

theorem processMessage_specReply (order : HashOrder) (replica : Replica S) (sender : NodeId)
    (round logIdx : UInt64) (logHash : Hash) :
    processMessage order replica (.specReply sender round logIdx logHash) =
      runStages perform (frontStages ++
        followStages order (.specReply sender round logIdx logHash)) replica :=
  rfl

theorem runStages_checkpointStages (replica : Replica S) :
    ∃ effects, runStages perform checkpointStages replica = some (checkpointed replica, effects) ∧
      Quiet effects := by
  cases sends : canSendSyncThreshold replica <;> cases forms : canFormCheckpoint replica <;>
    simp [checkpointStages, runStages, Stage.run, Stage.guard, sends, forms, perform,
      handleSendSync, handleFormCheckpoint, checkpointed, Quiet, Effect.message, Message.isRepair]

/-- What the blocks before the entry leave behind. -/
structure Front (replica middle : Replica S) (effects : List Effect) : Prop where
  inRepair_iff : middle.inRepair = true ↔ replica.inRepair = true ∨ EntersAnyway replica
  outside : middle.inRepair = false → middle.phase.isRepair = replica.phase.isRepair
  quiet : middle.inRepair = false → Quiet effects

/-- No guard that leads out of Speculative is open. -/
def Undisturbed (replica : Replica S) : Prop :=
  canEnterAlign replica = none ∧ canConflictProof replica = none ∧
    canTimeoutProof replica = none

/-- An undisturbed replica passes the evidence blocks. -/
theorem runStages_of_undisturbed {replica : Replica S} (undisturbed : Undisturbed replica) :
    runStages perform evidenceStages replica = some (replica, []) := by
  obtain ⟨aligns, conflicts, expires⟩ := undisturbed
  apply runStages_of_silent
  intro stage stageMem
  simp only [evidenceStages, List.mem_cons, List.not_mem_nil, or_false] at stageMem
  rcases stageMem with rfl | rfl | rfl
  · exact ⟨rfl, Option.map_eq_none_iff.mpr aligns⟩
  · exact ⟨rfl, Option.map_eq_none_iff.mpr conflicts⟩
  · exact ⟨rfl, Option.map_eq_none_iff.mpr expires⟩

/-- A replica that sees f+1 CHECKPOINTs aligns, and the other guards are closed then. -/
theorem runStages_of_aligns {replica : Replica S} {chkptIdx : UInt64}
    (aligns : canEnterAlign replica = some chkptIdx) :
    runStages perform evidenceStages replica =
      some ({ replica with phase := .aligning },
        [.broadcast (.stateRequest replica.nodeId chkptIdx)]) := by
  simp [evidenceStages, runStages, Stage.run, Stage.guard, aligns, perform, handleEnterAlign,
    canConflictProof, canTimeoutProof]

/-- Evidence counts in Speculative only. -/
theorem phase_of_evidence {replica : Replica S}
    (evidence : canConflictProof replica ≠ none ∨ canTimeoutProof replica ≠ none) :
    replica.phase = .speculative := by
  rcases evidence with conflicts | expires
  · rcases Option.ne_none_iff_exists'.mp conflicts with ⟨logIdx, conflicts⟩
    exact (canConflictProof_eq_some_iff.mp conflicts).1
  · rcases Option.ne_none_iff_exists'.mp expires with ⟨logIdx, expires⟩
    exact (canTimeoutProof_eq_some_iff.mp expires).1

/-- What the evidence blocks do with a replica. -/
inductive EvidencePass (replica : Replica S) : Replica S → List Effect → Prop
  | align {chkptIdx : UInt64} (aligns : canEnterAlign replica = some chkptIdx) :
      EvidencePass replica { replica with phase := .aligning }
        [.broadcast (.stateRequest replica.nodeId chkptIdx)]
  | enter {effects : List Effect} (noAlign : canEnterAlign replica = none)
      (evidence : canConflictProof replica ≠ none ∨ canTimeoutProof replica ≠ none) :
      EvidencePass replica { replica with phase := .collectingLogs, inRepair := true } effects
  | pass (undisturbed : Undisturbed replica) : EvidencePass replica replica []

/-- The first open guard decides: the others need Speculative, which its handler leaves. -/
theorem exists_evidencePass (replica : Replica S) :
    ∃ middle effects, runStages perform evidenceStages replica = some (middle, effects) ∧
      EvidencePass replica middle effects := by
  cases aligns : canEnterAlign replica with
  | some chkptIdx =>
      exact ⟨_, _, runStages_of_aligns aligns, .align aligns⟩
  | none =>
      cases conflicts : canConflictProof replica with
      | some logIdx =>
          have run : runStages perform evidenceStages replica =
              some ({ replica with phase := .collectingLogs, inRepair := true },
                [.broadcast (.conflictProof replica.round logIdx),
                  logMsgEffect replica replica.view]) := by
            simp [evidenceStages, runStages, Stage.run, Stage.guard, aligns, conflicts, perform,
              handleConflictProof, startRepair, canTimeoutProof]
          exact ⟨_, _, run, .enter aligns (.inl (by simp [conflicts]))⟩
      | none =>
          cases expires : canTimeoutProof replica with
          | some logIdx =>
              have run : runStages perform evidenceStages replica =
                  some ({ replica with phase := .collectingLogs, inRepair := true },
                    [.broadcast (.timeoutProof replica.round logIdx),
                      logMsgEffect replica replica.view]) := by
                simp [evidenceStages, runStages, Stage.run, Stage.guard, aligns, conflicts,
                  expires, perform, handleTimeoutProof, startRepair]
              exact ⟨_, _, run, .enter aligns (.inr (by simp [expires]))⟩
          | none =>
              have undisturbed : Undisturbed replica := ⟨aligns, conflicts, expires⟩
              exact ⟨_, _, runStages_of_undisturbed undisturbed, .pass undisturbed⟩

theorem runStages_evidenceStages (replica : Replica S) :
    ∃ middle effects, runStages perform evidenceStages replica = some (middle, effects) ∧
      (middle.inRepair = true ↔ replica.inRepair = true ∨ (canEnterAlign replica = none ∧
        (canConflictProof replica ≠ none ∨ canTimeoutProof replica ≠ none))) ∧
      (middle.inRepair = false →
        middle.phase.isRepair = replica.phase.isRepair ∧ Quiet effects) := by
  rcases exists_evidencePass replica with ⟨middle, effects, run, passes⟩
  refine ⟨middle, effects, run, ?_⟩
  cases passes with
  | align aligns =>
      simp [aligns, phase_of_canEnterAlign aligns, Quiet, Effect.message, Message.isRepair,
        Phase.isRepair]
  | enter noAlign evidence => simp [noAlign, evidence]
  | pass undisturbed =>
      obtain ⟨aligns, conflicts, expires⟩ := undisturbed
      simp [aligns, conflicts, expires, Quiet]

theorem exists_front (replica : Replica S) :
    ∃ middle effects,
      runStages perform frontStages replica = some (middle, effects) ∧
        Front replica middle effects := by
  rcases runStages_checkpointStages replica with ⟨first, forms, firstQuiet⟩
  rcases runStages_evidenceStages (checkpointed replica) with
    ⟨middle, second, enters, inRepair_iff, outside⟩
  have same : (checkpointed replica).inRepair = replica.inRepair ∧
      canConflictProof (checkpointed replica) = canConflictProof replica ∧
      canTimeoutProof (checkpointed replica) = canTimeoutProof replica := by
    unfold checkpointed
    split <;> exact ⟨rfl, rfl, rfl⟩
  obtain ⟨inRepair, conflict, timeout⟩ := same
  rw [inRepair, conflict, timeout] at inRepair_iff
  rw [checkpointed_phase] at outside
  have run : runStages perform frontStages replica = some (middle, first ++ second) := by
    rw [frontStages, runStages_append, forms, Option.bind_some, enters]
    rfl
  have quiet : middle.inRepair = false → Quiet (first ++ second) := by
    intro stays effect effectMem
    rcases List.mem_append.mp effectMem with early | late
    · exact firstQuiet effect early
    · exact (outside stays).2 effect late
  exact ⟨middle, first ++ second, run, inRepair_iff, fun stays => (outside stays).1, quiet⟩

/-- Inside REPAIR a proof is ignored like a SPEC-REPLY. -/
theorem followStages_of_inRepair {order : HashOrder} {msg : Message} {middle : Replica S}
    {sender : NodeId} {round logIdx : UInt64} {logHash : Hash} (isProof : msg.isProof = true)
    (inside : middle.inRepair = true) :
    runStages perform (followStages order msg) middle =
      runStages perform (followStages order (.specReply sender round logIdx logHash)) middle := by
  have silent : ∀ other, canEnterRepair middle other = none := by
    intro other
    simp [canEnterRepair, inside]
  have skipped : ∀ other, runStages perform (followStages order other) middle =
      runStages perform ((normalStages other).drop 7 ++ (voteStages order other ++
        exitStages other)) middle :=
    fun other => runStages_cons_of_silent rfl (Option.map_eq_none_iff.mpr (silent other))
  rw [skipped, skipped]
  cases msg <;> first | contradiction | rfl

/-- Outside REPAIR a SPEC-REPLY passes without a trace. -/
theorem followStages_specReply {order : HashOrder} {middle : Replica S} {sender : NodeId}
    {round logIdx : UInt64} {logHash : Hash} (outside : middle.phase.isRepair = false) :
    runStages perform (followStages order (.specReply sender round logIdx logHash)) middle =
      some (middle, []) := by
  obtain ⟨broadcast, prepare, commit, apply, catchup⟩ := repair_silent outside
  apply runStages_of_silent
  intro stage stageMem
  simp only [followStages, normalStages, voteStages, exitStages, List.drop, List.cons_append,
    List.nil_append, List.mem_cons, List.not_mem_nil, or_false] at stageMem
  rcases stageMem with rfl | rfl | rfl | rfl | rfl | rfl | rfl | rfl
  · exact ⟨rfl, Option.map_eq_none_iff.mpr (by simp [canEnterRepair])⟩
  · exact ⟨rfl, rfl⟩
  · exact ⟨rfl, Option.map_eq_none_iff.mpr (by simp [canStateReply])⟩
  · exact ⟨rfl, Option.map_eq_none_iff.mpr broadcast⟩
  · exact ⟨rfl, Option.map_eq_none_iff.mpr (prepare order)⟩
  · exact ⟨rfl, Option.map_eq_none_iff.mpr commit⟩
  · exact ⟨rfl, Option.map_eq_none_iff.mpr apply⟩
  · exact ⟨rfl, Option.map_eq_none_iff.mpr catchup⟩

/-- A proof that finds the replica outside REPAIR makes it send a LOG. -/
theorem exists_log_of_followStages {order : HashOrder} {msg : Message} {middle post : Replica S}
    {effects : List Effect} (isProof : msg.isProof = true) (outside : middle.inRepair = false)
    (run : runStages perform (followStages order msg) middle = some (post, effects)) :
    logMsgEffect middle middle.view ∈ effects := by
  have enters : canEnterRepair middle msg = some middle.round := by
    cases msg <;> first | contradiction | simp [canEnterRepair, outside]
  rcases runStages_cons_eq_some_iff.mp run with ⟨next, first, others, entry, _, rfl⟩
  rcases Stage.run_cases entry with ⟨silent, _⟩ | ⟨cue, listens, performs⟩
  · exact absurd (enters.symm.trans (Option.map_eq_none_iff.mp silent)) (by simp)
  · rcases Option.map_eq_some_iff.mp listens with ⟨_, _, rfl⟩
    cases performs
    exact List.mem_append_left _ List.mem_cons_self

/-- A proof is inert for a replica that is in REPAIR when it follows it, whatever its
round. -/
theorem inert_of_inRepair {replica middle : Replica S} {effects : List Effect} {msg : Message}
    {sender : NodeId} {round logIdx : UInt64} {logHash : Hash} (isProof : msg.isProof = true)
    (front : runStages perform frontStages replica =
      some (middle, effects))
    (inside : middle.inRepair = true) :
    Inert replica msg (.specReply sender round logIdx logHash) := by
  have unstored : ∀ replica : Replica S, replica.store msg = replica := by
    cases msg <;> first | contradiction | exact fun _ => rfl
  have same : ∀ order, processMessage order replica msg =
      processMessage order replica (.specReply sender round logIdx logHash) := by
    intro order
    rw [processMessage_of_isProof isProof, processMessage_specReply, runStages_append,
      runStages_append, front, Option.bind_some, Option.bind_some,
      followStages_of_inRepair isProof inside]
  intro outcome
  simp only [unstored, same, Option.map_id']

/-- A proof is not inert for a replica that it makes enter REPAIR: the call sends a
LOG. -/
theorem not_inert_of_outside {replica middle : Replica S} {effects : List Effect} {msg : Message}
    {sender : NodeId} {round logIdx : UInt64} {logHash : Hash} (isProof : msg.isProof = true)
    (front : runStages perform frontStages replica =
      some (middle, effects))
    (outside : middle.inRepair = false) (noRepair : middle.phase.isRepair = false)
    (quiet : Quiet effects) : ¬Inert replica msg (.specReply sender round logIdx logHash) := by
  intro inert
  have plain := processMessage_specReply .greatest replica sender round logIdx logHash
  rw [runStages_append, front, Option.bind_some, followStages_specReply noRepair] at plain
  obtain ⟨order, ended⟩ := (inert _).mpr ⟨.greatest, congrArg _ plain⟩
  rw [processMessage_of_isProof isProof, runStages_append, front, Option.bind_some] at ended
  simp only [Option.map_some, List.append_nil, Option.map_eq_some_iff, Prod.mk.injEq,
    Prod.exists] at ended
  rcases ended with ⟨post, others, follows, _, sameEffects⟩
  have sent := exists_log_of_followStages isProof outside follows
  have loud := quiet _ (sameEffects ▸ List.mem_append_right _ sent)
  simp [logMsgEffect, Effect.message, Message.isRepair] at loud

/-! ## Messages of past rounds -/

variable {config : Config} {nodeId : NodeId} {kvStore : S} {history : History S}

/-- A proof is inert exactly where the call it comes with ends up in REPAIR without
it. -/
theorem inert_iff_of_isProof (run : LocalRun config nodeId kvStore history) {msg : Message}
    (isProof : msg.isProof = true) {sender : NodeId} {round logIdx : UInt64} {logHash : Hash} :
    Inert history.replica msg (.specReply sender round logIdx logHash) ↔
      history.replica.inRepair = true ∨ EntersAnyway history.replica := by
  rcases exists_front history.replica with ⟨middle, effects, front, facts⟩
  rw [← facts.inRepair_iff]
  constructor
  · intro inert
    by_contra outside
    have outside := Bool.eq_false_of_not_eq_true outside
    have noRepair : history.replica.phase.isRepair = false := by
      rw [← (phase_consistency run).inRepair_eq]
      by_contra inside
      have stays := facts.inRepair_iff.mpr (.inl (Bool.eq_true_of_not_eq_false inside))
      rw [outside] at stays
      contradiction
    exact not_inert_of_outside isProof front outside ((facts.outside outside).trans noRepair)
      (facts.quiet outside) inert
  · exact inert_of_inRepair isProof front

/-- A message of a past round is inert unless it is a proof that reaches the replica
outside REPAIR. -/
theorem past_inert_iff (run : LocalRun config nodeId kvStore history) {msg : Message}
    (past : history.replica.Left msg) (sender : NodeId) (round logIdx : UInt64)
    (logHash : Hash) :
    Inert history.replica msg (.specReply sender round logIdx logHash) ↔
      msg.isProof = false ∨ history.replica.inRepair = true ∨ EntersAnyway history.replica := by
  cases isProof : msg.isProof with
  | false => simp [inert_of_left isProof past]
  | true => simp [inert_iff_of_isProof run isProof]

section Repaired

attribute [local instance] plainHasher

instance (replica : Replica MemKvStore) : Decidable (EntersAnyway replica) :=
  inferInstanceAs (Decidable (_ ∧ _))

theorem left_repairedHistory : repairedHistory.replica.Left (.timeoutProof 0 0) :=
  ⟨0, rfl, by decide +kernel⟩

/-- A TIMEOUT-PROOF of the finished round 0 starts another REPAIR in round 1. -/
theorem past_proof_enters :
    ¬∀ (config : Config) (nodeId : NodeId) (history : History MemKvStore),
      LocalRun config nodeId MemKvStore.new history → ∀ msg, history.replica.Left msg →
        ∀ sender round logIdx logHash,
          Inert history.replica msg (.specReply sender round logIdx logHash) := by
  intro inert
  have entered := (inert_iff_of_isProof localRun_repairedHistory rfl).mp
    (inert _ _ _ localRun_repairedHistory _ left_repairedHistory "r0" 0 0 Hash.zero)
  exact absurd entered (by decide +kernel)

theorem past_inert_iff_repaired :
    Inert repairedHistory.replica (.timeoutProof 0 0) (.specReply "r0" 0 0 Hash.zero) ↔
      (Message.timeoutProof 0 0).isProof = false ∨ repairedHistory.replica.inRepair = true ∨
        EntersAnyway repairedHistory.replica :=
  past_inert_iff localRun_repairedHistory left_repairedHistory "r0" 0 0 Hash.zero

end Repaired

end Raspen
