import Raspen.Consensus.Voting

/-!
# A second proposal is voted on

A replica that waits in PreparePhase has voted for its proposal, unless it holds
no REPAIR-HISTORY of its view and round.  A call that shows it a second proposal
makes it vote for that one under some iteration order.  Seeing a single proposal
is therefore the exact condition under which its votes agree.
-/

namespace Raspen

open Raspen.Transition

variable {S : Type}

/-- The two replicas agree on the phase, the proposal and the stored histories. -/
structure SameProposal (replica next : Replica S) : Prop where
  phase : next.phase = replica.phase
  inRepair : next.inRepair = replica.inRepair
  view : next.view = replica.view
  round : next.round = replica.round
  proposed : next.proposedHistoryHash = replica.proposedHistoryHash
  histories : next.repairHistoryMsgs = replica.repairHistoryMsgs

namespace SameProposal

theorem refl (replica : Replica S) : SameProposal replica replica :=
  ⟨rfl, rfl, rfl, rfl, rfl, rfl⟩

theorem trans {replica middle next : Replica S} (first : SameProposal replica middle)
    (second : SameProposal middle next) : SameProposal replica next where
  phase := second.phase.trans first.phase
  inRepair := second.inRepair.trans first.inRepair
  view := second.view.trans first.view
  round := second.round.trans first.round
  proposed := second.proposed.trans first.proposed
  histories := second.histories.trans first.histories

/-- Storing a message of another kind. -/
theorem of_storeIf {pattern : Message → Bool}
    (other : ∀ msg, pattern msg = true → msg.isRepairHistory = false) (msg : Message)
    (replica : Replica S) : SameProposal replica (replica.storeIf pattern msg) := by
  unfold Replica.storeIf
  split
  · rename_i matched
    have notHistory := other msg matched
    cases msg with
    | repairHistory => contradiction
    | _ => exact ⟨rfl, rfl, rfl, rfl, rfl, rfl⟩
  · exact refl replica

end SameProposal

variable [KvStoreOps S]

/-! ## The stages around the vote -/

/-- In PreparePhase the stages before the vote only answer STATE-REQUESTs. -/
theorem stateRequest_of_listen {msg : Message} {stage : ReplicaStage S}
    (stageMem : stage ∈ stagesBeforeVote msg) {replica : Replica S} {cue : Cue}
    (preparing : replica.phase = .preparePhase) (inside : replica.inRepair = true)
    (listens : stage.listen replica = some cue) : ∃ requester, cue = .stateRequest requester := by
  simp only [stagesBeforeVote, normalStages, List.cons_append, List.nil_append, List.mem_cons,
    List.not_mem_nil, or_false] at stageMem
  rcases stageMem with rfl | rfl | rfl | rfl | rfl | rfl | rfl | rfl | rfl | rfl <;>
  rcases Option.map_eq_some_iff.mp listens with ⟨value, guard, rfl⟩
  · simp [canSpeculate_eq_some_iff, preparing] at guard
  · simp [canSendSyncThreshold, preparing] at guard
  · simp [canFormCheckpoint, preparing] at guard
  · simp [canEnterAlign, preparing] at guard
  · simp [canConflictProof, preparing] at guard
  · simp [canTimeoutProof, preparing] at guard
  · simp [canEnterRepair, inside] at guard
  · exact ⟨value, rfl⟩
  · simp [canStateReply, preparing] at guard
  · simp [canBroadcastHistory, preparing] at guard

/-- No stage before the vote stores a REPAIR-HISTORY. -/
theorem sameProposal_of_store {msg : Message} {stage : ReplicaStage S}
    (stageMem : stage ∈ stagesBeforeVote msg) (replica : Replica S) :
    SameProposal replica (stage.store replica) := by
  simp only [stagesBeforeVote, normalStages, List.cons_append, List.nil_append, List.mem_cons,
    List.not_mem_nil, or_false] at stageMem
  rcases stageMem with rfl | rfl | rfl | rfl | rfl | rfl | rfl | rfl | rfl | rfl <;>
  first
    | exact .refl replica
    | refine .of_storeIf ?_ msg replica
      intro delivered
      cases delivered <;> simp [Message.isRepairHistory, Message.isSync, Message.isCheckpoint,
        Message.isTimeoutMsg, Message.isLogMsg]

/-- The stages before the vote leave a waiting replica as it is. -/
theorem sameProposal_of_stagesBeforeVote {msg : Message} {replica next : Replica S}
    {effects : List Effect} (preparing : replica.phase = .preparePhase)
    (inside : replica.inRepair = true)
    (run : runStages perform (stagesBeforeVote msg) replica = some (next, effects)) :
    SameProposal replica next := by
  have moves := chain_of_runStages run
  clear run
  induction moves with
  | refl => exact .refl replica
  | tail _ last ih =>
      cases last with
      | store stageMem => exact ih.trans (sameProposal_of_store stageMem _)
      | perform stageMem listens performs =>
          obtain ⟨requester, rfl⟩ := stateRequest_of_listen stageMem (ih.phase.trans preparing)
            (ih.inRepair.trans inside) listens
          cases performs
          exact ih

/-- A handler other than the two that propose or vote leaves a replica in
PreparePhase only by leaving its proposal alone. -/
theorem sameProposal_of_perform {input : Input} {replica next : Replica S} {cue : Cue}
    {effects : List Effect} (guard : Guard input replica cue)
    (performs : perform replica cue = some (next, effects))
    (notPropose : ∀ historyHash, cue ≠ .broadcastHistory historyHash)
    (notVote : ∀ historyHash, cue ≠ .repairPrepare historyHash)
    (preparing : next.phase = .preparePhase) : SameProposal replica next := by
  cases cue with
  | speculate logIdx =>
      rcases handleSpeculate_eq_some performs with ⟨_, _, _, _, _, _, rfl, _⟩
      exact ⟨rfl, rfl, rfl, rfl, rfl, rfl⟩
  | stateReply chkptIdx =>
      rcases handleStateReply_eq_some performs with ⟨_, _, _, _, rfl, _⟩
      contradiction
  | applyRepair historyHash =>
      rcases handleApplyRepair_eq_some performs with ⟨_, _, _, _, rfl, _⟩
      contradiction
  | repairDoneCatchup round =>
      rcases perform_repairDoneCatchup_eq_some performs with ⟨_, _, rfl, _⟩
      contradiction
  | viewChange newView =>
      rcases guard with ⟨timer, _, guard⟩
      have collecting := (canViewChange_eq_some_iff.mp guard).1
      rcases perform_viewChange_eq_some performs with ⟨view, _, rfl, _⟩
      exact absurd (collecting.symm.trans preparing) (by decide)
  | broadcastHistory historyHash => exact absurd rfl (notPropose historyHash)
  | repairPrepare historyHash => exact absurd rfl (notVote historyHash)
  | sendSync | formCheckpoint | stateRequest | chkptTimeout =>
      cases performs
      exact ⟨rfl, rfl, rfl, rfl, rfl, rfl⟩
  | enterAlign | conflictProof | timeoutProof | enterRepair | repairCommit =>
      cases performs
      contradiction

/-- Stages that neither propose nor vote end in PreparePhase only with the
proposal they began with. -/
theorem sameProposal_of_runStages {input : Input} {stages : List (ReplicaStage S)}
    (sub : stages ⊆ input.stages)
    (storeSame : ∀ stage ∈ stages, ∀ replica, SameProposal replica (stage.store replica))
    (notPropose : ∀ stage ∈ stages, ∀ replica historyHash,
      stage.listen replica ≠ some (.broadcastHistory historyHash))
    (silent : ∀ stage ∈ stages, SilentStage stage) {replica next : Replica S}
    {effects : List Effect} (run : runStages perform stages replica = some (next, effects))
    (preparing : next.phase = .preparePhase) : SameProposal replica next := by
  have moves := chain_of_runStages run
  clear run
  induction moves with
  | refl => exact .refl replica
  | @tail middle _ _ _ _ last ih =>
      cases last with
      | store stageMem =>
          have same := storeSame _ stageMem middle
          exact (ih (same.phase.symm.trans preparing)).trans same
      | perform stageMem listens performs =>
          have same := sameProposal_of_perform (guard_of_listen (sub stageMem) listens) performs
            (fun historyHash isPropose => notPropose _ stageMem _ historyHash (isPropose ▸ listens))
            (silent _ stageMem _ _ listens) preparing
          exact (ih (same.phase.symm.trans preparing)).trans same

theorem sameProposal_of_stagesAfterVote {msg : Message} {replica next : Replica S}
    {effects : List Effect}
    (run : runStages perform (stagesAfterVote msg) replica = some (next, effects))
    (preparing : next.phase = .preparePhase) : SameProposal replica next := by
  have sub : stagesAfterVote (S := S) msg ⊆ (Input.message .greatest msg).stages := by
    simp [messageStages_eq]
  refine sameProposal_of_runStages sub ?_ ?_ (silent_stagesAfterVote msg) run preparing
  · intro stage stageMem replica
    simp only [stagesAfterVote, exitStages, List.mem_cons, List.not_mem_nil, or_false] at stageMem
    rcases stageMem with rfl | rfl | rfl <;>
    · refine .of_storeIf ?_ msg replica
      intro delivered
      cases delivered <;> simp [Message.isRepairHistory, Message.isRepairPrepare,
        Message.isRepairCommit, Message.isRepairDone]
  · intro stage stageMem replica historyHash listens
    rcases List.mem_cons.mp stageMem with rfl | exit
    · rcases Option.map_eq_some_iff.mp listens with ⟨value, _, same⟩
      contradiction
    · have isExit := isExit_of_listen exit listens
      contradiction

theorem sameProposal_of_eventStages {timer : Event} {replica next : Replica S}
    {effects : List Effect}
    (run : runStages perform (eventStages timer) replica = some (next, effects))
    (preparing : next.phase = .preparePhase) : SameProposal replica next := by
  have sub : eventStages (S := S) timer ⊆ (Input.event timer).stages := List.Subset.refl _
  refine sameProposal_of_runStages sub ?_ ?_ (silent_eventStages timer) run preparing
  · intro stage stageMem replica
    simp only [eventStages, List.mem_cons, List.not_mem_nil, or_false] at stageMem
    rcases stageMem with rfl | rfl | rfl <;> exact .refl replica
  · intro stage stageMem replica historyHash listens
    have isTimer := isTimer_of_listen stageMem listens
    contradiction

/-! ## Every waiting replica has voted -/

/-- A replica that waits in PreparePhase with a REPAIR-HISTORY of its view and
round has voted for its proposal. -/
def HasVoted (replica : Replica S) (trace : List Effect) : Prop :=
  replica.phase = .preparePhase → ∀ sender historyHash,
    .repairHistory sender replica.view replica.round historyHash ∈ replica.repairHistoryMsgs →
    ∃ effect ∈ trace,
      prepareVote effect = some ((replica.view, replica.round), replica.proposedHistoryHash)

namespace HasVoted

variable {replica next : Replica S} {trace effects : List Effect}

omit [KvStoreOps S] in
theorem of_same (voted : HasVoted replica trace)
    (same : next.phase = .preparePhase → SameProposal replica next) :
    HasVoted next (trace ++ effects) := by
  intro preparing sender historyHash stored
  have same := same preparing
  rw [same.view, same.round, same.proposed]
  rw [same.view, same.round, same.histories] at stored
  rcases voted (same.phase.symm.trans preparing) sender historyHash stored with
    ⟨effect, effectMem, votes⟩
  exact ⟨effect, List.mem_append_left _ effectMem, votes⟩

/-- The vote block leaves no stored proposal unanswered. -/
theorem of_vote {order : HashOrder} {msg : Message}
    (run : (onReceiveRepairHistory order msg).run perform replica = some (next, effects)) :
    HasVoted next effects := by
  rcases Stage.run_cases run with ⟨silent, rfl, rfl⟩ | ⟨cue, listens, performs⟩
  · intro preparing sender historyHash stored
    have misses :
        canRepairPrepare order ((onReceiveRepairHistory order msg).store replica) = none :=
      Option.map_eq_none_iff.mp silent
    rw [canRepairPrepare, if_neg (by simp [preparing])] at misses
    have missed := order.complete misses _ stored
    rw [historyFor_eq_some_iff.mpr ⟨sender, rfl⟩] at missed
    contradiction
  · rcases Option.map_eq_some_iff.mp listens with ⟨historyHash, _, rfl⟩
    cases performs
    intro _ _ _ _
    exact ⟨_, List.mem_singleton.mpr rfl, rfl⟩

end HasVoted

variable {config : Config} {nodeId : NodeId} {kvStore : S} {history : History S}

theorem hasVoted_of_localRun (run : LocalRun config nodeId kvStore history) :
    HasVoted history.replica history.effects := by
  apply run.call_induction (P := fun history => HasVoted history.replica history.effects)
  · intro preparing
    contradiction
  · intro earlier input post effects _ voted steps
    rw [step_eq_runStages] at steps
    have kept : HasVoted post (earlier.effects ++ effects) := by
      cases input with
      | event timer => exact voted.of_same (sameProposal_of_eventStages steps)
      | message order msg =>
          rw [messageStages_eq, runStages_append_eq_some_iff] at steps
          rcases steps with ⟨waiting, first, others, _, rest, rfl⟩
          rcases runStages_cons_eq_some_iff.mp rest with ⟨decided, second, third, vote, back, rfl⟩
          have settled : HasVoted post (second ++ third) :=
            (HasVoted.of_vote vote).of_same (sameProposal_of_stagesAfterVote back)
          intro preparing sender historyHash stored
          rcases settled preparing sender historyHash stored with ⟨effect, effectMem, votes⟩
          refine ⟨effect, ?_, votes⟩
          simp only [List.mem_append] at effectMem ⊢
          exact .inr (.inr effectMem)
    simpa [History.effects] using kept

/-! ## The condition is exact -/

omit [KvStoreOps S] in
/-- The vote block reads the delivered proposal along with the stored ones. -/
theorem foundValues_of_storeIf {replica : Replica S} {msg : Message} {view round value : UInt64}
    (shown : value ∈ foundValues (insert msg replica.repairHistoryMsgs) (historyFor view round)) :
    value ∈ foundValues (replica.storeIf Message.isRepairHistory msg).repairHistoryMsgs
      (historyFor view round) := by
  rcases mem_foundValues_iff.mp shown with ⟨found, foundMem, accepted⟩
  obtain ⟨sender, rfl⟩ := historyFor_eq_some_iff.mp accepted
  apply mem_foundValues_iff.mpr
  refine ⟨_, ?_, accepted⟩
  rcases Finset.mem_insert.mp foundMem with rfl | stored
  · exact Finset.mem_insert_self _ _
  · exact (QuietStep.storeIf _ _ _).repairHistoryMsgs stored

/-- A replica in PreparePhase to which a call shows `preferred` as a proposal of
its view and round votes for it when the iteration meets it first. -/
theorem votes_of_preferring {replica next : Replica S} {msg : Message} {effects : List Effect}
    {preferred : UInt64} (preparing : replica.phase = .preparePhase)
    (inside : replica.inRepair = true)
    (shown : preferred ∈ foundValues (insert msg replica.repairHistoryMsgs)
      (historyFor replica.view replica.round))
    (steps : step replica (.message (.preferring preferred) msg) = some (next, effects)) :
    ∃ effect ∈ effects,
      prepareVote effect = some ((replica.view, replica.round), preferred) := by
  rw [step_eq_runStages, messageStages_eq, runStages_append_eq_some_iff] at steps
  rcases steps with ⟨waiting, first, others, front, rest, rfl⟩
  rcases runStages_cons_eq_some_iff.mp rest with ⟨decided, second, third, vote, _, rfl⟩
  have same := sameProposal_of_stagesBeforeVote preparing inside front
  have quiet := QuietStep.storeIf Message.isRepairHistory msg waiting
  have guard : canRepairPrepare (.preferring preferred)
      (waiting.storeIf Message.isRepairHistory msg) = some preferred := by
    rw [canRepairPrepare, if_neg (by simp [same.phase, preparing]), quiet.view, quiet.round,
      same.view, same.round]
    apply HashOrder.findMap_preferring
    apply foundValues_of_storeIf
    rw [same.histories]
    exact shown
  rcases Stage.run_cases vote with ⟨silent, _⟩ | ⟨cue, listens, performs⟩
  · have impossible := guard.symm.trans (Option.map_eq_none_iff.mp silent)
    contradiction
  · rcases Option.map_eq_some_iff.mp listens with ⟨historyHash, heard, rfl⟩
    have sameHash := guard.symm.trans heard
    cases sameHash
    cases performs
    refine ⟨_, List.mem_append_right _ (List.mem_append_left _ (List.mem_singleton.mpr rfl)), ?_⟩
    rw [prepareVote_eq_some_iff, ← same.view, ← same.round, ← quiet.view, ← quiet.round]
    exact ⟨_, rfl⟩

omit [KvStoreOps S] in
/-- Two proposals shown to a waiting replica include one it has not voted for,
and one it has. -/
theorem exists_other_proposal {replica : Replica S} {trace : List Effect} {msg : Message}
    (voted : HasVoted replica trace) (preparing : replica.phase = .preparePhase)
    (several : 1 < (foundValues (insert msg replica.repairHistoryMsgs)
      (historyFor replica.view replica.round)).card) :
    (∃ effect ∈ trace,
      prepareVote effect = some ((replica.view, replica.round), replica.proposedHistoryHash)) ∧
    ∃ other ∈ foundValues (insert msg replica.repairHistoryMsgs)
      (historyFor replica.view replica.round), other ≠ replica.proposedHistoryHash := by
  refine ⟨?_, Finset.exists_mem_ne several _⟩
  rcases Finset.one_lt_card.mp several with ⟨first, firstShown, second, secondShown, different⟩
  rcases mem_foundValues_iff.mp firstShown with ⟨found, foundMem, accepted⟩
  rcases mem_foundValues_iff.mp secondShown with ⟨found', foundMem', accepted'⟩
  obtain ⟨sender, rfl⟩ := historyFor_eq_some_iff.mp accepted
  obtain ⟨sender', rfl⟩ := historyFor_eq_some_iff.mp accepted'
  rcases Finset.mem_insert.mp foundMem with delivered | stored
  · rcases Finset.mem_insert.mp foundMem' with delivered' | stored'
    · have same := delivered.trans delivered'.symm
      cases same
      exact absurd rfl different
    · exact voted preparing sender' second stored'
  · exact voted preparing sender first stored

/-- After a run whose calls all saw a single proposal, the votes agree under every
iteration order of the next call exactly when that call sees a single proposal. -/
theorem votes_agree_next_iff (run : LocalRun config nodeId kvStore history)
    (single : ∀ call ∈ history.calls, call.SingleProposal) {msg : Message}
    (returns : ∀ order, ∃ later, history.next (.message order msg) = some later) :
    (∀ order later, history.next (.message order msg) = some later →
      Agree prepareVote later.effects) ↔
    (history.replica.phase = .preparePhase →
      (foundValues (insert msg history.replica.repairHistoryMsgs)
        (historyFor history.replica.view history.replica.round)).card ≤ 1) := by
  constructor
  · intro agrees preparing
    by_contra several
    have consistent := (emitted_of_localRun run).consistent
    have inside : history.replica.inRepair = true :=
      consistent.inRepair_iff.mpr (.inr (.inl preparing))
    rcases exists_other_proposal (hasVoted_of_localRun run) preparing (Nat.not_le.mp several) with
      ⟨⟨old, oldMem, oldVote⟩, other, shown, different⟩
    obtain ⟨later, served⟩ := returns (.preferring other)
    rcases History.next_eq_some_iff.mp served with ⟨post, effects, steps, rfl⟩
    rcases votes_of_preferring preparing inside shown steps with ⟨new, newMem, newVote⟩
    refine different (agrees _ _ served new ?_ old ?_ _ _ _ newVote oldVote)
    · simp [History.effects, newMem]
    · simp only [History.effects, List.flatMap_append]
      exact List.mem_append_left _ oldMem
  · intro sees order later served
    rcases History.next_eq_some_iff.mp served with ⟨post, effects, steps, rfl⟩
    refine (voted_of_localRun (run.tail served) ?_).agree
    intro call callMem
    rcases List.mem_append.mp callMem with old | new
    · exact single call old
    · rw [List.mem_singleton.mp new]
      intro delivered isDelivered preparing
      cases isDelivered
      exact sees preparing

end Raspen
