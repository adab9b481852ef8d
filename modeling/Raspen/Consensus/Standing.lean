import Raspen.Consensus.Evidence
import Raspen.Consensus.LeaderVotes
import Raspen.Consensus.Storing

/-!
# Where a replica stands in a round

What a replica has sent tells where it stands: after its LOG for a view of a round it is in
REPAIR in that view, has left the round from it, or has sent a LOG for a later view of the
round.  What it has been sent for REPAIR stays stored.
-/

namespace Raspen

open Raspen.Transition

variable {S : Type}

/-! ## Delivered messages stay stored -/

/-- A message that storing would not add is in the set of its category. -/
theorem mem_of_store_eq (msgs : Replica S → Finset Message) {replica : Replica S} {msg : Message}
    (stored : replica.store msg = replica) (added : msg ∈ msgs (replica.store msg)) :
    msg ∈ msgs replica := by
  rw [stored] at added
  exact added

/-- Some block stores every message of the REPAIR agreement. -/
theorem exists_store_of_isRepair [KvStoreOps S] (order : HashOrder) {msg : Message}
    (kind : msg.isRepair = true) :
    ∃ stage ∈ (Input.message order msg).stages (S := S),
      ∀ replica, stage.store replica = replica.store msg := by
  have kinds : msg.isLogMsg = true ∨ msg.isRepairHistory = true ∨ msg.isRepairPrepare = true ∨
      msg.isRepairCommit = true ∨ msg.isRepairDone = true := by
    cases msg <;> simp_all [Message.isRepair, Message.isLogMsg, Message.isRepairHistory,
      Message.isRepairPrepare, Message.isRepairCommit, Message.isRepairDone]
  simp only [Input.stages, normalStages, voteStages, exitStages, List.cons_append,
    List.nil_append]
  rcases kinds with kind | kind | kind | kind | kind
  · exact ⟨onReceiveLogMsg msg, by simp, fun _ => if_pos kind⟩
  · exact ⟨onReceiveRepairHistory order msg, by simp, fun _ => if_pos kind⟩
  · exact ⟨onReceiveRepairPrepare msg, by simp, fun _ => if_pos kind⟩
  · exact ⟨onReceiveRepairCommit msg, by simp, fun _ => if_pos kind⟩
  · exact ⟨onReceiveRepairDone msg, by simp, fun _ => if_pos kind⟩

/-- Whatever is stored stays stored. -/
theorem preserves_stored [KvStoreOps S] (input : Input) (msg : Message) :
    Preserves perform input.stages (fun _ _ => True)
      fun replica : Replica S => replica.store msg = replica := by
  apply preserves_stages
  · intro replica delivered _ stored
    rw [store_comm, stored]
  · intro replica cue next effects stored _ _ performs
    have again := perform_store replica msg cue
    rw [stored, performs] at again
    exact congrArg Prod.fst (Option.some.inj again.symm)

variable [KvStoreOps S] {config : Config} {nodeId : NodeId} {kvStore : S} {history : History S}

theorem store_eq_of_delivered (run : LocalRun config nodeId kvStore history) {msg : Message}
    (kind : msg.isRepair = true) (delivered : history.Delivered msg) :
    history.replica.store msg = history.replica := by
  revert delivered
  apply run.call_induction (P := fun history =>
    history.Delivered msg → history.replica.store msg = history.replica)
  · rintro ⟨call, callMem, _⟩
    simp [History.start] at callMem
  · rintro earlier input post effects _ ih steps ⟨call, callMem, isInput⟩
    rw [step_eq_runStages] at steps
    rcases List.mem_append.mp callMem with old | new
    · have before := ih ⟨call, old, isInput⟩
      exact runStages_preserves (P := fun replica => replica.store msg = replica)
        (preserves_stored input msg) before steps
    · rw [List.mem_singleton.mp new] at isInput
      cases input with
      | event timer => contradiction
      | message order delivered =>
          cases isInput
          rcases exists_store_of_isRepair (S := S) order kind with ⟨stage, stageMem, stores⟩
          apply holds_of_store (P := fun replica => replica.store msg = replica) stageMem ?_
            (preserves_stored _ msg) steps
          intro replica
          rw [stores, store_idem]

/-! ## What a phase tells -/

omit [KvStoreOps S] in
/-- What a replica has sent or stored to be in a voting phase. -/
structure Standing (replica : Replica S) (trace : List Effect) : Prop where
  proposal : replica.phase = .preparePhase ∨ replica.phase = .commitPhase →
    (∃ sender, .repairHistory sender replica.view replica.round replica.proposedHistoryHash ∈
      replica.repairHistoryMsgs) ∨
      .repairHistory replica.nodeId replica.view replica.round replica.proposedHistoryHash ∈
        trace.map Effect.message
  commitVote : replica.phase = .commitPhase →
    .repairCommit replica.nodeId replica.view replica.round replica.proposedHistoryHash ∈
      trace.map Effect.message

theorem Standing.of_repairMove {replica next : Replica S} {trace effects : List Effect}
    (standing : Standing replica trace) (move : RepairMove replica next effects) :
    Standing next (trace ++ effects) := by
  have grows : trace.map Effect.message ⊆ (trace ++ effects).map Effect.message := by
    rw [List.map_append]
    exact List.subset_append_left _ _
  cases move with
  | quiet quiet _ =>
      rcases quiet.log with ⟨phase, _⟩ | ⟨outside, _⟩
      · constructor
        · intro voting
          rw [phase] at voting
          rw [quiet.view, quiet.round, quiet.proposed, quiet.nodeId]
          rcases standing.proposal voting with ⟨sender, stored⟩ | sent
          · exact .inl ⟨sender, quiet.repairHistoryMsgs stored⟩
          · exact .inr (grows sent)
        · intro committing
          rw [phase] at committing
          rw [quiet.view, quiet.round, quiet.proposed, quiet.nodeId]
          exact grows (standing.commitVote committing)
      · constructor
        · rintro (preparing | committing)
          · simp [preparing, Phase.isRepair] at outside
          · simp [committing, Phase.isRepair] at outside
        · intro committing
          simp [committing, Phase.isRepair] at outside
  | enter _ _ => exact ⟨by simp, by simp⟩
  | propose guard =>
      constructor
      · intro _
        right
        simp [Effect.message]
      · simp
  | vote _ stored => exact ⟨fun _ => .inl ⟨_, stored⟩, by simp⟩
  | lock guard =>
      obtain ⟨preparing, rfl, _⟩ := canRepairCommit_eq_some_iff.mp guard
      constructor
      · intro _
        exact (standing.proposal (.inl preparing)).imp id fun sent => grows sent
      · intro _
        simp [Effect.message]
  | apply _ _ _ => exact ⟨by simp, by simp⟩
  | catchup _ _ => exact ⟨by simp, by simp⟩
  | changeView collecting _ => exact ⟨by simp [collecting], by simp [collecting]⟩

/-! ## Where a LOG leads -/

omit [KvStoreOps S] in
/-- How a replica has left `round` from `view`: it has committed, on a quorum of prepare
votes, or it has caught up with those that did. -/
inductive Departed (view round : UInt64) (replica : Replica S) (trace : List Effect) : Prop
  | applied {historyHash : UInt64} :
      .repairCommit replica.nodeId view round historyHash ∈ trace.map Effect.message →
      replica.config.byzQuorum ≤ (replica.repairPrepareMsgs.filter
        (·.isRepairPrepareFor view round historyHash)).card →
      Departed view round replica trace
  | caughtUp :
      replica.config.fPlus1 ≤
        (replica.repairDoneMsgs.filter (·.isRepairDoneAt view round)).card →
      (replica.repairHistoryMsgs.filter (·.isRepairHistoryAt view round)).Nonempty →
      Departed view round replica trace

omit [KvStoreOps S] in
theorem Departed.mono {view round : UInt64} {replica next : Replica S}
    {trace effects : List Effect} (departed : Departed view round replica trace)
    (nodeId : next.nodeId = replica.nodeId) (config : next.config = replica.config)
    (prepares : replica.repairPrepareMsgs ⊆ next.repairPrepareMsgs)
    (dones : replica.repairDoneMsgs ⊆ next.repairDoneMsgs)
    (histories : replica.repairHistoryMsgs ⊆ next.repairHistoryMsgs) :
    Departed view round next (trace ++ effects) := by
  cases departed with
  | applied sent quorum =>
      apply Departed.applied
      · rw [nodeId, List.map_append]
        exact List.mem_append_left _ sent
      · rw [config]
        exact quorum.trans (Finset.card_le_card (Finset.filter_subset_filter _ prepares))
  | caughtUp enough proposed =>
      apply Departed.caughtUp
      · rw [config]
        exact enough.trans (Finset.card_le_card (Finset.filter_subset_filter _ dones))
      · exact proposed.mono (Finset.filter_subset_filter _ histories)

omit [KvStoreOps S] in
/-- Where a replica is that has sent a LOG for `view` of `round`. -/
inductive Engaged (view round : UInt64) (replica : Replica S) (trace : List Effect) : Prop
  | passed {later : UInt64} {logHash : Hash} : view.toNat < later.toNat →
      .logMsg replica.nodeId later round logHash ∈ trace.map Effect.message →
      Engaged view round replica trace
  | inside : replica.view = view → replica.round = round → replica.phase.isRepair = true →
      Engaged view round replica trace
  | finished : round.toNat < replica.round.toNat → Departed view round replica trace →
      Engaged view round replica trace

omit [KvStoreOps S] in
/-- The replica is where its LOGs have led it. -/
def FollowsLogs (replica : Replica S) (trace : List Effect) : Prop :=
  ∀ view round logHash, .logMsg replica.nodeId view round logHash ∈ trace.map Effect.message →
    Engaged view round replica trace

theorem Departed.of_repairMove {view round : UInt64} {replica next : Replica S}
    {trace effects : List Effect} (departed : Departed view round replica trace)
    (move : RepairMove replica next effects) : Departed view round next (trace ++ effects) := by
  cases move with
  | quiet quiet _ =>
      exact departed.mono quiet.nodeId quiet.config quiet.repairPrepareMsgs quiet.repairDoneMsgs
        quiet.repairHistoryMsgs
  | _ =>
      exact departed.mono rfl rfl (Finset.Subset.refl _) (Finset.Subset.refl _)
        (Finset.Subset.refl _)

theorem nodeId_of_repairMove {replica next : Replica S} {effects : List Effect}
    (move : RepairMove replica next effects) : next.nodeId = replica.nodeId := by
  cases move with
  | quiet quiet _ => exact quiet.nodeId
  | _ => rfl

/-- A move keeps a replica engaged. -/
theorem Engaged.of_repairMove {view round : UInt64} {replica next : Replica S}
    {trace effects : List Effect} (consistent : PhaseConsistent replica)
    (standing : Standing replica trace) (evidence : Evidence replica)
    (engaged : Engaged view round replica trace) (move : RepairMove replica next effects) :
    Engaged view round next (trace ++ effects) := by
  cases engaged with
  | passed passed sent =>
      apply Engaged.passed passed
      rw [nodeId_of_repairMove move, List.map_append]
      exact List.mem_append_left _ sent
  | finished ended finished =>
      apply Engaged.finished _ (finished.of_repairMove move)
      rcases progress_of_repairMove consistent move with further | advances
      · exact ended.trans further
      · rw [advances.round]
        exact ended
  | inside viewEq roundEq isRepair =>
      subst viewEq roundEq
      cases move with
      | quiet quiet _ =>
          rcases quiet.log with ⟨phase, _⟩ | ⟨_, outside⟩
          · exact .inside quiet.view quiet.round (phase ▸ isRepair)
          · rw [isRepair] at outside
            contradiction
      | enter outside _ =>
          rw [consistent.inRepair_eq, isRepair] at outside
          contradiction
      | propose _ | vote _ _ | lock _ => exact .inside rfl rfl rfl
      | apply guard advanced installed =>
          obtain ⟨committing, rfl, _⟩ := canApplyRepair_eq_some_iff.mp guard
          have quorum := evidence.prepared committing
          rw [card_prepareSenders] at quorum
          have applied : Departed replica.view replica.round replica trace :=
            .applied (standing.commitVote committing) quorum
          exact .finished (UInt64.lt_iff_toNat_lt.mp (lt_of_addU64_one advanced))
            (applied.of_repairMove (.apply guard advanced installed))
      | catchup guard advanced =>
          obtain ⟨_, enough, proposed, _⟩ := canRepairDoneCatchup_eq_some_iff.mp guard
          have caughtUp : Departed replica.view replica.round replica trace :=
            .caughtUp enough proposed
          exact .finished (UInt64.lt_iff_toNat_lt.mp (lt_of_addU64_one advanced))
            (caughtUp.of_repairMove (.catchup guard advanced))
      | @changeView newView _ advanced =>
          have sent : .logMsg replica.nodeId newView replica.round
              (KvStoreOps.topHash replica.kvStore) ∈
                (trace ++ [logMsgEffect replica newView]).map Effect.message := by
            rw [List.map_append]
            exact List.mem_append_right _ List.mem_cons_self
          exact .passed (UInt64.lt_iff_toNat_lt.mp (lt_of_addU64_one advanced)) sent

/-- A LOG is sent from inside REPAIR. -/
theorem engaged_of_sent {view round : UInt64} {logHash : Hash} {replica next : Replica S}
    {effects : List Effect} (trace : List Effect) (move : RepairMove replica next effects)
    (sent : .logMsg next.nodeId view round logHash ∈ effects.map Effect.message) :
    Engaged view round next (trace ++ effects) := by
  cases move with
  | quiet _ quiet =>
      rcases List.mem_map.mp sent with ⟨effect, effectMem, isLog⟩
      have silent := quiet effect effectMem
      rw [isLog] at silent
      contradiction
  | enter _ quiet =>
      rcases List.mem_map.mp sent with ⟨effect, effectMem, isLog⟩
      rcases List.mem_append.mp effectMem with proofMem | logMem
      · have silent := quiet effect proofMem
        rw [isLog] at silent
        contradiction
      · rw [List.mem_singleton.mp logMem] at isLog
        cases isLog
        exact .inside rfl rfl rfl
  | changeView collecting _ =>
      simp only [List.map_cons, List.map_nil, List.mem_singleton, logMsgEffect, Effect.message,
        Message.logMsg.injEq] at sent
      obtain ⟨_, rfl, rfl, _⟩ := sent
      exact .inside rfl rfl (by simp [collecting, Phase.isRepair])
  | _ => simp [Effect.message] at sent

theorem FollowsLogs.of_repairMove {replica next : Replica S} {trace effects : List Effect}
    (consistent : PhaseConsistent replica) (standing : Standing replica trace)
    (evidence : Evidence replica) (follows : FollowsLogs replica trace)
    (move : RepairMove replica next effects) : FollowsLogs next (trace ++ effects) := by
  intro view round logHash sent
  rw [List.map_append] at sent
  rcases List.mem_append.mp sent with old | new
  · rw [nodeId_of_repairMove move] at old
    exact (follows view round logHash old).of_repairMove consistent standing evidence move
  · exact engaged_of_sent trace move new

/-! ## Runs -/

/-- A replica signs its own prepare votes. -/
theorem sender_of_prepare (run : LocalRun config nodeId kvStore history) {sender : NodeId}
    {view round historyHash : UInt64}
    (emitted : .repairPrepare sender view round historyHash ∈ history.messages) :
    sender = nodeId := by
  rcases run.exists_firing_of_mem_messages emitted with
    ⟨call, callMem, ⟨replica, cue⟩, fires, next, effects, performs, effect, effectMem, _, isVote⟩
  have emits := emits_of_perform performs effect effectMem
  rw [isVote] at emits
  cases cue with
  | repairPrepare voted =>
      cases performs
      rw [List.mem_singleton.mp effectMem] at isVote
      cases isVote
      exact nodeId_of_visits run (.inr ⟨call, callMem, _, fires⟩)
  | _ => contradiction

theorem standing_of_localRun (run : LocalRun config nodeId kvStore history) :
    Standing history.replica history.effects := by
  apply run.repair_invariant (P := Standing)
  · exact ⟨by simp [Replica.new], by simp [Replica.new]⟩
  · exact Standing.of_repairMove

theorem followsLogs_of_localRun (run : LocalRun config nodeId kvStore history) :
    FollowsLogs history.replica history.effects := by
  have holds : (PhaseConsistent history.replica ∧ Evidence history.replica) ∧
      Standing history.replica history.effects ∧
        FollowsLogs history.replica history.effects := by
    apply run.repair_invariant (P := fun replica trace =>
      (PhaseConsistent replica ∧ Evidence replica) ∧
        Standing replica trace ∧ FollowsLogs replica trace)
    · refine ⟨⟨phaseConsistent_new config nodeId kvStore, evidence_new config nodeId kvStore⟩,
        ⟨by simp [Replica.new], by simp [Replica.new]⟩, ?_⟩
      intro view round logHash sent
      simp at sent
    · intro replica next trace effects holds move
      obtain ⟨⟨consistent, evidence⟩, standing, follows⟩ := holds
      exact ⟨⟨consistent.of_repairMove move, evidence.of_repairMove move⟩,
        standing.of_repairMove move, follows.of_repairMove consistent standing evidence move⟩
  exact holds.2.2

end Raspen
