import Raspen.Consensus.CatchUp
import Raspen.Consensus.PastRounds
import Raspen.Consensus.Rounds

/-!
# Calls that panic

The in-memory store never fails, so a handler panics in a checked addition or
nowhere.  Rounds and views are advanced once in a call and cannot reach the limit by
counting.  The size of the log can: an index or a history hash from the network puts
it there in one step.
-/

namespace Raspen

open KvStoreOps Raspen.Transition

theorem addU64_one_eq_none_iff {a : UInt64} : addU64 a 1 = none ↔ a.toNat = 2 ^ 64 - 1 := by
  have bound := a.toNat_lt
  unfold addU64
  rw [UInt64.toNat_one]
  split
  · simp only [reduceCtorEq, false_iff]
    omega
  · simp only [true_iff]
    omega

theorem forall_addU64_one_iff {a : UInt64} :
    (∀ sum, ¬addU64 a 1 = some sum) ↔ a.toNat = 2 ^ 64 - 1 := by
  rw [← addU64_one_eq_none_iff, Option.eq_none_iff_forall_ne_some]

/-! ## Failing handlers -/

/-- The value of a cue that its handler cannot count beyond. -/
def Exhausted {S : Type} (replica : Replica S) : Cue → Prop
  | .speculate _ => replica.kvSize.toNat = 2 ^ 64 - 1
  | .stateReply chkptIdx => chkptIdx.toNat = 2 ^ 64 - 1
  | .applyRepair _ | .repairDoneCatchup _ => replica.round.toNat = 2 ^ 64 - 1
  | .viewChange newView => newView = none
  | _ => False

/-- The exit blocks advance the round at most once. -/
theorem round_of_exit {S : Type} [KvStoreOps S] {replica : Replica S} {msg : Message}
    {firing : Replica S × Cue} (fires : firing ∈ fired perform (exitStages msg) replica) :
    firing.2.isExit = true ∧ firing.1.round = replica.round := by
  rcases exists_stage_of_mem_fired fires with ⟨stage, stageMem, heard⟩
  refine ⟨isExit_of_listen stageMem heard, ?_⟩
  have committed := QuietStep.storeIf Message.isRepairCommit msg replica
  rcases mem_fired_cons fires with ⟨isStored, _⟩ | ⟨middle, effects, applying, later⟩
  · rw [isStored]
    exact committed.round
  · have finished := QuietStep.storeIf Message.isRepairDone msg middle
    rcases mem_fired_cons later with ⟨isStored, listens⟩ | ⟨_, _, _, none⟩
    · rw [isStored] at listens ⊢
      rcases Stage.run_cases applying with ⟨_, rfl, _⟩ | ⟨cue, applies, performs⟩
      · exact finished.round.trans committed.round
      · -- after an application the catch-up is silent
        have firstMem : onReceiveRepairCommit msg ∈ exitStages (S := S) msg := by
          simp [exitStages]
        have exited := exited_of_perform (isExit_of_listen firstMem applies) performs
        have speculative := (exited.storeIf Message.isRepairDone msg).phase
        rcases Option.map_eq_some_iff.mp listens with ⟨oldRound, catchup, _⟩
        have impossible := (canRepairDoneCatchup_of_speculative speculative).symm.trans catchup
        contradiction
    · simp [fired] at none

theorem noExit_of_listen {S : Type} [KvStoreOps S] {order : HashOrder} {msg : Message}
    {stage : ReplicaStage S} (stageMem : stage ∈ normalStages msg ++ voteStages order msg)
    {replica : Replica S} {cue : Cue} (listens : stage.listen replica = some cue) :
    cue.isExit = false := by
  rcases List.mem_append.mp stageMem with normal | vote
  · have isNormal := isNormal_of_listen normal listens
    cases cue <;> simp_all [Cue.isNormal, Cue.isExit]
  · have isVote := isVote_of_listen vote listens
    cases cue <;> simp_all [Cue.isVote, Cue.isExit]

/-- Before the exits only the size of the log can be exhausted. -/
theorem exhausted_cases {S : Type} [KvStoreOps S] {order : HashOrder} {msg : Message}
    {stage : ReplicaStage S} (stageMem : stage ∈ normalStages msg ++ voteStages order msg)
    {replica : Replica S} {cue : Cue} (listens : stage.listen replica = some cue)
    (exhausted : Exhausted replica cue) :
    (∃ logIdx, cue = .speculate logIdx) ∨ ∃ chkptIdx, cue = .stateReply chkptIdx := by
  rcases List.mem_append.mp stageMem with normal | vote
  · have isNormal := isNormal_of_listen normal listens
    cases cue <;> simp_all [Cue.isNormal, Exhausted]
  · have isVote := isVote_of_listen vote listens
    cases cue <;> simp_all [Cue.isVote, Exhausted]

section Calls

variable [EntryHasher] {replica : Replica MemKvStore}

/-- Over the in-memory store a handler panics in its addition or not at all. -/
theorem perform_eq_none_iff {cue : Cue} : perform replica cue = none ↔ Exhausted replica cue := by
  cases cue with
  | speculate logIdx =>
      have reported := MemKvStore.hashAt_insert replica.kvStore logIdx (newEntry replica logIdx)
      simp [perform, handleSpeculate, put, reported, Exhausted, forall_addU64_one_iff,
        Except.toOption]
  | stateReply chkptIdx =>
      simp [perform, handleStateReply, rebuildFromEntries, Exhausted, forall_addU64_one_iff,
        Except.toOption]
  | applyRepair historyHash =>
      obtain ⟨merged, installed⟩ := exists_mergedStore replica.kvStore historyHash
      simp [perform, handleApplyRepair, installed, Exhausted, forall_addU64_one_iff]
  | repairDoneCatchup round =>
      simp [perform, handleRepairDoneCatchup, Exhausted, forall_addU64_one_iff]
  | viewChange newView =>
      cases newView <;> simp [perform, handleViewChange, Exhausted]
  | _ => simp [perform, Exhausted, handleSendSync, handleFormCheckpoint, handleEnterAlign,
      handleStateRequest, handleConflictProof, handleChkptTimeout, handleTimeoutProof,
      handleEnterRepair, startRepair, handleBroadcastHistory, handleRepairPrepare,
      handleRepairCommit]

/-! ## Failing calls -/

variable {order : HashOrder} {msg : Message} {front : List (ReplicaStage MemKvStore)}

/-- Before the last round, what ends with the exit blocks fails before them. -/
theorem fails_before_exit (sub : front ⊆ normalStages msg ++ voteStages order msg)
    (small : replica.round.toNat < 2 ^ 64 - 1) :
    runStages perform (front ++ exitStages msg) replica = none ↔
      ∃ firing ∈ fired perform front replica, Exhausted firing.1 firing.2 := by
  have failed_iff : runStages perform front replica = none ↔
      ∃ firing ∈ fired perform front replica, Exhausted firing.1 firing.2 := by
    rw [runStages_eq_none_iff]
    simp only [perform_eq_none_iff]
  rw [← failed_iff, runStages_append]
  cases run : runStages perform front replica with
  | none => simp
  | some outcome =>
      have noExit : ∀ firing ∈ fired perform front replica, firing.2.isExit = false := by
        intro firing fires
        rcases exists_stage_of_mem_fired fires with ⟨stage, stageMem, listens⟩
        exact noExit_of_listen (sub stageMem) listens
      have inStages : front ⊆ (Input.message order msg).stages := by
        intro stage stageMem
        rw [Input.stages, ← List.append_assoc]
        exact List.mem_append_left _ (sub stageMem)
      have sameRound := (stays_of_noExit _ inStages run noExit).1
      have survives : runStages perform (exitStages msg) outcome.1 ≠ none := by
        intro fails
        obtain ⟨firing, fires, failed⟩ := runStages_eq_none_iff.mp fails
        obtain ⟨isExit, atRound⟩ := round_of_exit fires
        rw [perform_eq_none_iff] at failed
        rw [← sameRound, ← atRound] at small
        cases cue : firing.2 <;> simp_all [Exhausted, Cue.isExit]
      simp [survives]

/-- The blocks before the state transfer never fail, and say whether it is due. -/
theorem runStages_frontStages (replica : Replica MemKvStore) :
    ∃ middle effects, runStages perform frontStages replica = some (middle, effects) ∧
      middle.round = replica.round ∧
      (middle.phase = .aligning ↔
        replica.phase = .aligning ∨ canEnterAlign (checkpointed replica) ≠ none) := by
  rcases runStages_checkpointStages replica with ⟨first, forms, _⟩
  rcases exists_evidencePass (checkpointed replica) with ⟨middle, second, enters, passes⟩
  have later : middle.round = replica.round ∧ (middle.phase = .aligning ↔
      replica.phase = .aligning ∨ canEnterAlign (checkpointed replica) ≠ none) := by
    cases passes with
    | align aligns => simp [aligns]
    | enter noAlign evidence =>
        have speculative : replica.phase = .speculative := by
          simpa using phase_of_evidence evidence
        simp [noAlign, speculative]
    | pass undisturbed => simp [undisturbed.1]
  obtain ⟨round, aligning_iff⟩ := later
  refine ⟨middle, first ++ second, ?_, round, aligning_iff⟩
  rw [frontStages, runStages_append, forms, Option.bind_some, enters]
  rfl

/-- A STATE-REPLY fails exactly when it transfers the last index. -/
theorem stateReply_eq_none_iff {sender : NodeId} {chkptIdx : UInt64} {chkptHash : Hash}
    (small : replica.round.toNat < 2 ^ 64 - 1) :
    processMessage order replica (.stateReply sender chkptIdx chkptHash) = none ↔
      (replica.phase = .aligning ∨ canEnterAlign (checkpointed replica) ≠ none) ∧
        chkptIdx.toNat = 2 ^ 64 - 1 := by
  rcases runStages_frontStages replica with ⟨middle, effects, run, round, aligning_iff⟩
  have split : processMessage order replica (.stateReply sender chkptIdx chkptHash) =
      runStages perform (frontStages ++
        followStages order (.stateReply sender chkptIdx chkptHash)) replica := rfl
  have follow : followStages (S := MemKvStore) order (.stateReply sender chkptIdx chkptHash) =
      ((normalStages (.stateReply sender chkptIdx chkptHash)).drop 6 ++
        voteStages order (.stateReply sender chkptIdx chkptHash)) ++
        exitStages (.stateReply sender chkptIdx chkptHash) :=
    (List.append_assoc ..).symm
  have sub : (normalStages (S := MemKvStore) (.stateReply sender chkptIdx chkptHash)).drop 6 ++
      voteStages order (.stateReply sender chkptIdx chkptHash) ⊆
        normalStages (.stateReply sender chkptIdx chkptHash) ++
          voteStages order (.stateReply sender chkptIdx chkptHash) := by
    intro stage stageMem
    rcases List.mem_append.mp stageMem with normal | vote
    · exact List.mem_append_left _ (List.mem_of_mem_drop normal)
    · exact List.mem_append_right _ vote
  rw [split, runStages_append, run, Option.bind_some, Option.map_eq_none_iff, ← aligning_iff,
    follow, fails_before_exit sub (round ▸ small)]
  -- the two blocks before the transfer do not answer a STATE-REPLY
  have noEntry : (canEnterRepair middle (.stateReply sender chkptIdx chkptHash)).map
      Cue.enterRepair = none := by
    simp [canEnterRepair]
  have noRequest : (canStateRequest (.stateReply sender chkptIdx chkptHash)).map
      Cue.stateRequest = none := rfl
  have fired_eq : fired perform ((normalStages (.stateReply sender chkptIdx chkptHash)).drop 6 ++
      voteStages order (.stateReply sender chkptIdx chkptHash)) middle =
        fired perform (.guard (fun state => (canStateReply state
          (.stateReply sender chkptIdx chkptHash)).map Cue.stateReply) ::
            voteStages order (.stateReply sender chkptIdx chkptHash)) middle :=
    (fired_cons_of_silent rfl noEntry).trans (fired_cons_of_silent rfl noRequest)
  rw [fired_eq]
  constructor
  · rintro ⟨firing, fires, exhausted⟩
    rcases mem_fired_cons fires with ⟨isMiddle, listens⟩ | ⟨_, _, _, later⟩
    · rcases Option.map_eq_some_iff.mp listens with ⟨index, guard, isTransfer⟩
      obtain ⟨aligning, _, _, named⟩ := canStateReply_eq_some_iff.mp guard
      cases named
      rw [← isTransfer] at exhausted
      have here : firing.1 = middle := isMiddle
      exact ⟨here ▸ aligning, exhausted⟩
    · rcases exists_stage_of_mem_fired later with ⟨stage, stageMem, listens⟩
      have isVote := isVote_of_listen stageMem listens
      cases cue : firing.2 <;> simp_all [Exhausted, Cue.isVote]
  · rintro ⟨aligning, last⟩
    refine ⟨(middle, .stateReply chkptIdx), ?_, last⟩
    simp [fired, Stage.guard, canStateReply, aligning]

/-- A request fails exactly when it is served by an exhausted log. -/
theorem speculate_eq_none_iff {fromSeq : NodeId} {round eta : UInt64} {opHash : Hash}
    (small : replica.round.toNat < 2 ^ 64 - 1) :
    processMessage order replica (.speculate fromSeq round opHash eta) = none ↔
      replica.phase = .speculative ∧ replica.kvSize.toNat = 2 ^ 64 - 1 := by
  rw [processMessage, ← List.append_assoc, fails_before_exit (List.Subset.refl _) small]
  constructor
  · rintro ⟨firing, fires, exhausted⟩
    rcases mem_fired_cons fires with ⟨isStart, listens⟩ | ⟨_, _, _, later⟩
    · have here : firing.1 = replica := isStart
      rcases Option.map_eq_some_iff.mp listens with ⟨logIdx, guard, isRequest⟩
      obtain ⟨_, speculative, _⟩ := canSpeculate_eq_some_iff.mp guard
      rw [← isRequest] at exhausted
      rw [here] at speculative exhausted
      exact ⟨speculative, exhausted⟩
    · rcases exists_stage_of_mem_fired later with ⟨stage, inTail, listens⟩
      have stageMem : stage ∈ normalStages (.speculate fromSeq round opHash eta) ++
          voteStages order (.speculate fromSeq round opHash eta) := List.mem_cons_of_mem _ inTail
      have inStages :
          stage ∈ (Input.message order (.speculate fromSeq round opHash eta)).stages := by
        rw [Input.stages, ← List.append_assoc]
        exact List.mem_append_left _ stageMem
      have inLater : stage ∈ laterStages order (.speculate fromSeq round opHash eta) :=
        List.mem_append_left (exitStages (.speculate fromSeq round opHash eta)) inTail
      rcases exhausted_cases stageMem listens exhausted with ⟨logIdx, isRequest⟩ | ⟨index, isReply⟩
      · exact absurd isRequest (no_speculate_of_listen inLater listens logIdx)
      · have guard := guard_of_listen inStages listens
        rw [isReply] at guard
        rcases guard with ⟨_, _, same, guard⟩
        cases same
        obtain ⟨_, _, _, named⟩ := canStateReply_eq_some_iff.mp guard
        contradiction
  · rintro ⟨speculative, last⟩
    refine ⟨(replica, .speculate replica.kvSize), ?_, last⟩
    simp [normalStages, fired, Stage.guard, canSpeculate, speculative]

/-- No other message fails. -/
theorem message_ne_none (small : replica.round.toNat < 2 ^ 64 - 1)
    (noRequest : ∀ fromSeq round opHash eta, msg ≠ .speculate fromSeq round opHash eta)
    (noReply : ∀ sender chkptIdx chkptHash, msg ≠ .stateReply sender chkptIdx chkptHash) :
    processMessage order replica msg ≠ none := by
  rw [processMessage, ← List.append_assoc, Ne, fails_before_exit (List.Subset.refl _) small]
  rintro ⟨firing, fires, exhausted⟩
  rcases exists_stage_of_mem_fired fires with ⟨stage, stageMem, listens⟩
  have inStages : stage ∈ (Input.message order msg).stages := by
    rw [Input.stages, ← List.append_assoc]
    exact List.mem_append_left _ stageMem
  have guard := guard_of_listen inStages listens
  rcases exhausted_cases stageMem listens exhausted with ⟨logIdx, isRequest⟩ | ⟨index, isReply⟩
  · rw [isRequest] at guard
    rcases guard with ⟨_, _, same, guard⟩
    cases same
    obtain ⟨⟨fromSeq, round, opHash, eta, named⟩, _⟩ := canSpeculate_eq_some_iff.mp guard
    exact noRequest fromSeq round opHash eta named
  · rw [isReply] at guard
    rcases guard with ⟨_, _, same, guard⟩
    cases same
    obtain ⟨_, sender, chkptHash, named⟩ := canStateReply_eq_some_iff.mp guard
    exact noReply sender index chkptHash named

/-- Before the last view no timer fails. -/
theorem event_ne_none {timer : Event} (small : replica.view.toNat < 2 ^ 64 - 1) :
    handleEvent replica timer ≠ none := by
  intro fails
  obtain ⟨firing, fires, exhausted⟩ := runStages_eq_none_iff.mp fails
  rw [perform_eq_none_iff] at exhausted
  rcases exists_stage_of_mem_fired fires with ⟨stage, stageMem, listens⟩
  have isTimer := isTimer_of_listen stageMem listens
  have guard : Guard (.event timer) firing.1 firing.2 := guard_of_listen stageMem listens
  cases cue : firing.2 with
  | viewChange newView =>
      rw [cue] at guard
      have expired : Input.event timer = .event .repairViewTimeout :=
        viewTimeout_of_viewChange guard
      cases expired
      rw [handleEvent_repairViewTimeout] at fails
      split at fails
      · rw [Option.bind_eq_none_iff] at fails
        cases advanced : addU64 replica.view 1 with
        | none =>
            have last := addU64_one_eq_none_iff.mp advanced
            omega
        | some next =>
            have handled := fails next advanced
            simp [handleViewChange] at handled
      · contradiction
  | _ => simp_all [Exhausted, Cue.isTimer]

/-- The inputs that overflow the size of the log: a request when it is exhausted, and
the transfer of the last index to a replica that aligns. -/
def Overflows (replica : Replica MemKvStore) : Input → Prop
  | .message _ (.speculate ..) =>
      replica.phase = .speculative ∧ replica.kvSize.toNat = 2 ^ 64 - 1
  | .message _ (.stateReply _ chkptIdx _) =>
      (replica.phase = .aligning ∨ canEnterAlign (checkpointed replica) ≠ none) ∧
        chkptIdx.toNat = 2 ^ 64 - 1
  | _ => False

/-- Before the last round and view, the calls that panic are those that overflow the
size of the log. -/
theorem step_eq_none_iff {input : Input} (round : replica.round.toNat < 2 ^ 64 - 1)
    (view : replica.view.toNat < 2 ^ 64 - 1) :
    step replica input = none ↔ Overflows replica input := by
  cases input with
  | event timer => simp [Overflows, step, event_ne_none view]
  | message order msg =>
      cases msg with
      | speculate fromSeq _ opHash eta => exact speculate_eq_none_iff round
      | stateReply sender chkptIdx chkptHash => exact stateReply_eq_none_iff round
      | _ => simp [Overflows, step, message_ne_none round]

end Calls

/-! ## Bounded inputs -/

section Bounds

variable {S : Type}

/-- Indices below 2^63 and history hashes of at most 2^63. -/
def Input.Bounded : Input → Prop
  | .message _ (.stateReply _ chkptIdx _) => chkptIdx.toNat < 2 ^ 63
  | .message _ (.repairHistory _ _ _ historyHash) => historyHash.toNat ≤ 2 ^ 63
  | _ => True

/-- The counters of a replica that has been fed `limit` bounded inputs. -/
structure WithinBounds (limit : Nat) (logs : Finset Message) (replica : Replica S) : Prop where
  kvSize : replica.kvSize.toNat ≤ 2 ^ 63 + limit
  proposed : replica.proposedHistoryHash.toNat ≤ 2 ^ 63
  histories : ∀ sender view round historyHash,
    .repairHistory sender view round historyHash ∈ replica.repairHistoryMsgs →
      historyHash.toNat ≤ 2 ^ 63
  logMsgs : replica.logMsgs ⊆ logs

theorem card_logSenders_le (view round : UInt64) (msgs : Finset Message) :
    (logSenders view round msgs).card ≤ msgs.card := by
  have named : (logSenders view round msgs).map Function.Embedding.some ⊆
      msgs.image Message.sender := by
    intro source sourceMem
    rcases Finset.mem_map.mp sourceMem with ⟨node, nodeMem, rfl⟩
    rw [logSenders_eq_senders, mem_senders_iff] at nodeMem
    rcases nodeMem with ⟨msg, stored, _, sent⟩
    exact Finset.mem_image.mpr ⟨msg, stored, sent⟩
  calc
    _ = ((logSenders view round msgs).map Function.Embedding.some).card :=
      (Finset.card_map _).symm
    _ ≤ (msgs.image Message.sender).card := Finset.card_le_card named
    _ ≤ msgs.card := Finset.card_image_le

namespace WithinBounds

variable {limit : Nat} {logs : Finset Message} {replica next : Replica S}

theorem store (bounds : WithinBounds limit logs replica) {input : Input} {msg : Message}
    (bounded : input.Bounded) (delivers : input.delivered = some msg) (kept : msg ∈ logs) :
    WithinBounds limit logs (replica.store msg) where
  kvSize := by simpa using bounds.kvSize
  proposed := by simpa using bounds.proposed
  histories sender view round historyHash stored := by
    rw [Replica.store_repairHistoryMsgs] at stored
    split at stored
    · rcases Finset.mem_insert.mp stored with rfl | old
      · cases input with
        | message order msg =>
            cases delivers
            exact bounded
        | event timer => contradiction
      · exact bounds.histories _ _ _ _ old
    · exact bounds.histories _ _ _ _ stored
  logMsgs := by
    rw [Replica.store_logMsgs]
    split
    · exact Finset.insert_subset kept bounds.logMsgs
    · exact bounds.logMsgs

variable [KvStoreOps S]

/-- Every handler but the request's keeps the bounds. -/
theorem of_perform {input : Input} {cue : Cue} {effects : List Effect}
    (bounds : WithinBounds limit logs replica) (bounded : input.Bounded)
    (few : logs.card ≤ 2 ^ 63) (notRequest : ∀ logIdx, cue ≠ .speculate logIdx)
    (guard : Guard input replica cue) (performs : perform replica cue = some (next, effects)) :
    WithinBounds limit logs next := by
  have kvSize := bounds.kvSize
  cases cue with
  | speculate logIdx => exact absurd rfl (notRequest logIdx)
  | stateReply chkptIdx =>
      rcases handleStateReply_eq_some performs with ⟨_, size, _, grown, rfl, _⟩
      rcases guard with ⟨order, msg, rfl, guard⟩
      obtain ⟨_, sender, chkptHash, rfl⟩ := canStateReply_eq_some_iff.mp guard
      have small : chkptIdx.toNat < 2 ^ 63 := bounded
      have size_eq := toNat_of_addU64 grown
      rw [UInt64.toNat_one] at size_eq
      exact { bounds with kvSize := by simp only; omega }
  | broadcastHistory historyHash =>
      cases performs
      obtain ⟨_, _, _, rfl⟩ := canBroadcastHistory_eq_some_iff.mp guard
      have counted := (card_logSenders_le replica.view replica.round replica.logMsgs).trans
        (Finset.card_le_card bounds.logMsgs)
      have cast := Nat.mod_le (logSenders replica.view replica.round replica.logMsgs).card (2 ^ 64)
      exact
        { bounds with
          proposed := by
            simp only [UInt64.toNat_ofNat']
            omega }
  | repairPrepare historyHash =>
      cases performs
      rcases guard with ⟨order, msg, rfl, guard⟩
      obtain ⟨_, sender, stored⟩ := canRepairPrepare_eq_some guard
      exact { bounds with proposed := bounds.histories _ _ _ _ stored }
  | applyRepair historyHash =>
      rcases handleApplyRepair_eq_some performs with ⟨_, _, _, _, rfl, _⟩
      obtain ⟨_, rfl, _⟩ := canApplyRepair_eq_some_iff.mp guard
      have proposed := bounds.proposed
      exact
        { bounds with
          kvSize := by simp only; omega
          proposed := by simp }
  | repairDoneCatchup round =>
      rcases perform_repairDoneCatchup_eq_some performs with ⟨_, _, rfl, _⟩
      exact { bounds with proposed := by simp }
  | viewChange newView =>
      rcases perform_viewChange_eq_some performs with ⟨_, _, rfl, _⟩
      exact { bounds with }
  | _ =>
      cases performs
      exact { bounds with }

/-- What every handler but the request's does in some blocks of a call. -/
theorem of_runStages {input : Input} {stages : List (ReplicaStage S)} {effects : List Effect}
    (bounds : WithinBounds limit logs replica) (bounded : input.Bounded)
    (few : logs.card ≤ 2 ^ 63) (delivered : ∀ msg, input.delivered = some msg → msg ∈ logs)
    (sub : stages ⊆ input.stages)
    (noRequest : ∀ stage ∈ stages, ∀ state cue, stage.listen state = some cue →
      ∀ logIdx, cue ≠ .speculate logIdx)
    (run : runStages perform stages replica = some (next, effects)) :
    WithinBounds limit logs next := by
  have preserves : Preserves perform input.stages
      (fun _ cue => ∀ logIdx, cue ≠ .speculate logIdx) (WithinBounds (S := S) limit logs) := by
    apply preserves_stages
    · intro state msg delivers holds
      exact holds.store bounded delivers (delivered msg delivers)
    · intro state cue later emitted holds allowed guard performs
      exact holds.of_perform bounded few allowed guard performs
  refine ((preserves.mono sub).of_runStages bounds ?_ run).1
  intro firing fires
  rcases exists_stage_of_mem_fired fires with ⟨stage, stageMem, listens⟩
  exact noRequest stage stageMem _ _ listens

/-- A bounded call raises the bounds by one. -/
theorem of_step {input : Input} {effects : List Effect} {calls : Nat}
    (bounds : WithinBounds calls replica.logMsgs replica) (bounded : input.Bounded)
    (counted : replica.logMsgs.card ≤ calls) (few : calls < 2 ^ 63)
    (steps : step replica input = some (next, effects)) :
    WithinBounds (calls + 1) next.logMsgs next ∧ next.logMsgs.card ≤ calls + 1 := by
  have grown : ∃ logs : Finset Message, WithinBounds (calls + 1) logs next ∧
      logs.card ≤ calls + 1 := by
    cases input with
    | event timer =>
        refine ⟨replica.logMsgs, ?_, Nat.le_succ_of_le counted⟩
        have raised : WithinBounds (calls + 1) replica.logMsgs replica :=
          { bounds with kvSize := Nat.le_succ_of_le bounds.kvSize }
        refine raised.of_runStages bounded (by omega) (by simp [Input.delivered])
          (List.Subset.refl _) ?_ steps
        rintro stage stageMem state cue listens logIdx rfl
        have isTimer := isTimer_of_listen stageMem listens
        contradiction
    | message order msg =>
        have total : (insert msg replica.logMsgs).card ≤ calls + 1 :=
          (Finset.card_insert_le _ _).trans (Nat.succ_le_succ counted)
        refine ⟨insert msg replica.logMsgs, ?_, total⟩
        have raised : WithinBounds (calls + 1) (insert msg replica.logMsgs) replica :=
          { bounds with
            kvSize := Nat.le_succ_of_le bounds.kvSize
            logMsgs := Finset.subset_insert _ _ }
        have split : (Input.message order msg).stages =
            (.guard fun state => (canSpeculate state msg).map Cue.speculate) ::
              laterStages (S := S) order msg := rfl
        rw [step_eq_runStages, split] at steps
        rcases runStages_cons_eq_some_iff.mp steps with ⟨middle, _, _, head, tail, _⟩
        have middleBounds : WithinBounds (calls + 1) (insert msg replica.logMsgs) middle := by
          rcases Stage.run_cases head with ⟨_, rfl, _⟩ | ⟨cue, listens, performs⟩
          · exact raised
          · rcases Option.map_eq_some_iff.mp listens with ⟨logIdx, _, rfl⟩
            rcases handleSpeculate_eq_some performs with ⟨_, size, _, _, _, added, rfl, _⟩
            have size_eq : size.toNat = replica.kvSize.toNat + 1 := toNat_of_addU64 added
            have before := bounds.kvSize
            exact { raised with kvSize := by simp only; omega }
        refine middleBounds.of_runStages bounded (by omega) ?_ laterStages_subset ?_ tail
        · intro other delivers
          cases delivers
          exact Finset.mem_insert_self _ _
        · intro stage stageMem state cue listens
          exact no_speculate_of_listen stageMem listens
  rcases grown with ⟨logs, kept, total⟩
  exact ⟨{ kept with logMsgs := Finset.Subset.refl _ },
    (Finset.card_le_card kept.logMsgs).trans total⟩

variable {config : Config} {nodeId : NodeId} {kvStore : S} {history : History S}

/-- A run of bounded inputs stays within the bounds. -/
theorem of_localRun (run : LocalRun config nodeId kvStore history)
    (bounded : ∀ call ∈ history.calls, call.input.Bounded)
    (few : history.calls.length ≤ 2 ^ 63) :
    WithinBounds history.calls.length history.replica.logMsgs history.replica ∧
      history.replica.logMsgs.card ≤ history.calls.length := by
  revert bounded few
  apply run.call_induction (P := fun history => (∀ call ∈ history.calls, call.input.Bounded) →
    history.calls.length ≤ 2 ^ 63 →
      WithinBounds history.calls.length history.replica.logMsgs history.replica ∧
        history.replica.logMsgs.card ≤ history.calls.length)
  · intro _ _
    exact ⟨⟨by simp [History.start, Replica.new], by simp [History.start, Replica.new],
      by simp [History.start, Replica.new], Finset.Subset.refl _⟩, Nat.le_refl _⟩
  · intro earlier input post effects _ ih steps bounded few
    rw [List.length_append, List.length_singleton] at few ⊢
    obtain ⟨before, counted⟩ := ih
      (fun call callMem => bounded call (List.mem_append_left _ callMem)) (by omega)
    exact before.of_step (bounded _ (List.mem_append_right _ List.mem_cons_self)) counted
      (by omega) steps

end WithinBounds

end Bounds

/-! ## Every run -/

section Runs

variable {S : Type} [KvStoreOps S] {config : Config} {nodeId : NodeId} {kvStore : S}

/-- Each call advances the round and the view by at most one. -/
theorem counters_le_calls {history : History S} (run : LocalRun config nodeId kvStore history) :
    history.replica.round.toNat ≤ history.calls.length ∧
      history.replica.view.toNat ≤ history.calls.length := by
  apply run.call_induction (P := fun history =>
    history.replica.round.toNat ≤ history.calls.length ∧
      history.replica.view.toNat ≤ history.calls.length)
  · simp [History.start, Replica.new]
  · intro earlier input post effects _ counted steps
    obtain ⟨round, view⟩ := counted
    have call : RoundStep ⟨input, earlier.replica, post, effects⟩ := .of_step steps
    simp only [List.length_append, List.length_singleton]
    constructor
    · rcases call.round_cases with same | advanced
      · simp only at same
        omega
      · simp only at advanced
        omega
    · by_cases expires : input = .event .repairViewTimeout ∧ earlier.replica.phase = .collectingLogs
      · have advanced := call.changesView expires.1 expires.2
        simp only at advanced
        omega
      · have same := call.keepsView expires
        simp only at same
        rw [same]
        omega

end Runs

section Replicas

variable [EntryHasher] {config : Config} {nodeId : NodeId} {history : History MemKvStore}

/-- The store holds nothing at the last index. -/
def LastUnused (replica : Replica MemKvStore) : Prop :=
  ∀ (k : UInt64) entry, replica.kvStore.entries[k]? = some entry → k.toNat < 2 ^ 64 - 1

theorem LastUnused.of_perform {replica next : Replica MemKvStore} {input : Input} {cue : Cue}
    {effects : List Effect} (unused : LastUnused replica) (guard : Guard input replica cue)
    (performs : perform replica cue = some (next, effects)) : LastUnused next := by
  intro k entry atIndex
  cases cue with
  | speculate logIdx =>
      rcases guard with ⟨_, msg, _, guard⟩
      obtain ⟨_, _, rfl⟩ := canSpeculate_eq_some_iff.mp guard
      rcases handleSpeculate_eq_some performs with ⟨_, size, _, written, _, grown, rfl, _⟩
      cases written
      by_cases top : k = replica.kvSize
      · have size_eq : size.toNat = replica.kvSize.toNat + 1 := toNat_of_addU64 grown
        have bound := size.toNat_lt
        rw [top]
        omega
      · rw [MemKvStore.getElem?_insert, if_neg top] at atIndex
        exact unused k entry atIndex
  | stateReply chkptIdx =>
      rcases handleStateReply_eq_some performs with ⟨_, size, rebuilds, grown, rfl, _⟩
      have inside := lt_of_rebuild rebuilds atIndex
      have size_eq : size.toNat = chkptIdx.toNat + 1 := toNat_of_addU64 grown
      have bound := size.toNat_lt
      omega
  | applyRepair historyHash =>
      rcases handleApplyRepair_eq_some performs with ⟨_, _, _, installed, rfl, _⟩
      by_cases positive : 0 < historyHash
      · rw [mergedStore, if_pos positive] at installed
        have inside := lt_of_rebuild (ok_of_toOption_eq_some installed) atIndex
        have bound := historyHash.toNat_lt
        omega
      · rw [mergedStore, if_neg positive] at installed
        cases installed
        exact unused k entry atIndex
  | _ =>
      obtain ⟨_, store_eq⟩ := log_of_perform rfl performs
      rw [store_eq] at atIndex
      exact unused k entry atIndex

/-- So the size of the store is defined. -/
theorem LastUnused.size_ne_none {replica : Replica MemKvStore} (unused : LastUnused replica) :
    size replica.kvStore ≠ none := by
  simp only [size]
  cases last : replica.kvStore.lastEntry with
  | none => simp
  | some top =>
      have below := unused top.1 top.2 (MemKvStore.lastEntry_eq_some_iff.mp last).1
      intro overflows
      rw [addU64_one_eq_none_iff.mp overflows] at below
      exact Nat.lt_irrefl _ below

theorem lastUnused_of_localRun (run : LocalRun config nodeId MemKvStore.new history) :
    ∀ call ∈ history.calls, LastUnused call.post := by
  have holds := run.of_preserves (P := LastUnused) (fun _ _ => True) ?_ (fun _ _ _ _ => trivial) ?_
  · intro call callMem
    exact (holds.2 call callMem).2.1
  · intro call _
    apply preserves_stages
    · intro replica msg _ unused
      simpa [LastUnused] using unused
    · intro replica cue next effects unused _ guard performs
      exact unused.of_perform guard performs
  · intro k entry atIndex
    simp [Replica.new, MemKvStore.new] at atIndex

/-- All inputs are served, and the size of the store is defined after each of them. -/
def Served (config : Config) (nodeId : NodeId) (inputs : List Input) : Prop :=
  ∃ history, execute History.next (History.start config nodeId MemKvStore.new) inputs =
    some history ∧ ∀ call ∈ history.calls, size call.post.kvStore ≠ none

/-- The calls that `inputs` attempt on a new replica, each with the history so far. -/
def attempted (config : Config) (nodeId : NodeId) (inputs : List Input) :
    List (History MemKvStore × Input) :=
  attempts History.next (History.start config nodeId MemKvStore.new) inputs

/-- A history in which a call is attempted is a run over earlier inputs. -/
theorem localRun_of_mem_attempted {inputs : List Input} {call : History MemKvStore × Input}
    (callMem : call ∈ attempted config nodeId inputs) :
    LocalRun config nodeId MemKvStore.new call.1 ∧
      ∃ rest, inputs = call.1.calls.map Call.input ++ call.2 :: rest := by
  rcases exists_execute_of_mem_attempts callMem with ⟨before, rest, split, runs⟩
  have inputs_eq := History.inputs_of_execute runs
  rw [History.start, List.map_nil, List.nil_append] at inputs_eq
  exact ⟨reachable_of_execute runs, rest, inputs_eq ▸ split⟩

section Few

variable {inputs : List Input} (few : inputs.length < 2 ^ 63) {call : History MemKvStore × Input}
include few

theorem length_calls_lt (callMem : call ∈ attempted config nodeId inputs) :
    call.1.calls.length < 2 ^ 63 - 1 := by
  obtain ⟨_, rest, split⟩ := localRun_of_mem_attempted callMem
  have total := congrArg List.length split
  rw [List.length_append, List.length_map, List.length_cons] at total
  omega

/-- Of few calls, those that overflow the size of the log are the ones that panic. -/
theorem next_eq_none_iff (callMem : call ∈ attempted config nodeId inputs) :
    call.1.next call.2 = none ↔ Overflows call.1.replica call.2 := by
  obtain ⟨run, _⟩ := localRun_of_mem_attempted callMem
  have short := length_calls_lt few callMem
  obtain ⟨round, view⟩ := counters_le_calls run
  rw [History.next, Option.map_eq_none_iff]
  exact step_eq_none_iff (by omega) (by omega)

/-- Few bounded inputs do not overflow the size of the log. -/
theorem not_overflows_of_bounded (bounded : ∀ input ∈ inputs, input.Bounded)
    (callMem : call ∈ attempted config nodeId inputs) : ¬Overflows call.1.replica call.2 := by
  obtain ⟨run, rest, split⟩ := localRun_of_mem_attempted callMem
  have short := length_calls_lt few callMem
  have past : ∀ earlier ∈ call.1.calls, earlier.input.Bounded := by
    intro earlier earlierMem
    apply bounded
    rw [split]
    exact List.mem_append_left _ (List.mem_map_of_mem earlierMem)
  have present : call.2.Bounded := by
    apply bounded
    rw [split]
    exact List.mem_append_right _ List.mem_cons_self
  have kvSize := (WithinBounds.of_localRun run past (by omega)).1.kvSize
  intro overflows
  cases input : call.2 with
  | event timer => simp [input, Overflows] at overflows
  | message order msg =>
      rw [input] at overflows present
      cases msg with
      | speculate fromSeq round opHash eta =>
          have last := overflows.2
          omega
      | stateReply sender chkptIdx chkptHash =>
          have last := overflows.2
          have small : chkptIdx.toNat < 2 ^ 63 := present
          omega
      | _ => exact overflows

/-- In fewer than 2^63 calls no addition overflows and no handler fails exactly when no
input overflows the size of the log.  Bounded inputs never do. -/
theorem served_iff :
    (Served config nodeId inputs ↔
        ∀ call ∈ attempted config nodeId inputs, ¬Overflows call.1.replica call.2) ∧
      ((∀ input ∈ inputs, input.Bounded) → Served config nodeId inputs) := by
  have served_iff_defined : Served config nodeId inputs ↔
      ∀ call ∈ attempted config nodeId inputs, call.1.next call.2 ≠ none := by
    constructor
    · rintro ⟨history, runs, _⟩
      exact exists_execute_iff.mp ⟨history, runs⟩
    · intro defined
      obtain ⟨history, runs⟩ := exists_execute_iff.mpr defined
      have unused := lastUnused_of_localRun (reachable_of_execute runs)
      exact ⟨history, runs, fun call callMem => (unused call callMem).size_ne_none⟩
  have served_iff_fits : Served config nodeId inputs ↔
      ∀ call ∈ attempted config nodeId inputs, ¬Overflows call.1.replica call.2 := by
    rw [served_iff_defined]
    exact forall₂_congr fun call callMem => not_congr (next_eq_none_iff few callMem)
  constructor
  · exact served_iff_fits
  · intro bounded
    exact served_iff_fits.mpr fun call callMem => not_overflows_of_bounded few bounded callMem

end Few

end Replicas

/-! ## A transfer of the last index -/

section Transfer

attribute [local instance] plainHasher

def alignInput : Input :=
  .message .greatest (.checkpoint "r0" 0 0 Hash.zero)

def lastTransferInput : Input :=
  .message .greatest (.stateReply "r0" 0xffffffffffffffff Hash.zero)

/-- The replica of a one-node cluster that a CHECKPOINT has made align. -/
def aligningHistory : History MemKvStore :=
  ((History.start (Config.forTest 1 0 0) "r0" MemKvStore.new).next alignInput).get
    (by decide +kernel)

theorem overflows_aligningHistory : Overflows aligningHistory.replica lastTransferInput :=
  ⟨.inl (by decide +kernel), rfl⟩

/-- A STATE-REPLY for the last index panics it. -/
theorem last_transfer_panics :
    ¬∀ (config : Config) (nodeId : NodeId) (inputs : List Input), inputs.length < 2 ^ 63 →
      Served config nodeId inputs := by
  intro served
  obtain ⟨history, runs, _⟩ :=
    served (Config.forTest 1 0 0) "r0" [alignInput, lastTransferInput] (by decide)
  rcases Option.bind_eq_some_iff.mp runs with ⟨aligning, first, rest⟩
  have isAligning : aligning = aligningHistory :=
    Option.some.inj (first.symm.trans (Option.some_get _).symm)
  rcases Option.bind_eq_some_iff.mp rest with ⟨transferred, second, _⟩
  have fails : aligningHistory.next lastTransferInput = none := by
    rw [History.next, Option.map_eq_none_iff]
    exact (step_eq_none_iff (by decide +kernel) (by decide +kernel)).mpr overflows_aligningHistory
  rw [isAligning, fails] at second
  contradiction

/-- The replica takes over a large index and serves a request behind it. -/
def largeTransferInputs : List Input :=
  [alignInput, .message .greatest (.stateReply "r0" 0x4000000000000000 Hash.zero),
    .message .greatest (.speculate "seq" 0 Hash.zero 0)]

theorem served_iff_aligned :
    ¬Served (Config.forTest 1 0 0) "r0" [alignInput, lastTransferInput] ∧
      Served (Config.forTest 1 0 0) "r0" largeTransferInputs := by
  constructor
  · rw [(served_iff (by decide)).1]
    intro fits
    apply fits (aligningHistory, lastTransferInput) _ overflows_aligningHistory
    have first : (History.start (Config.forTest 1 0 0) "r0" MemKvStore.new).next alignInput =
        some aligningHistory :=
      (Option.some_get _).symm
    simp [attempted, attempts, first]
  · apply (served_iff (by decide)).2
    simp [largeTransferInputs, alignInput, Input.Bounded]

end Transfer

end Raspen
