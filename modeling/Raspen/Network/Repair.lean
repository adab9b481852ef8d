import Raspen.Consensus.Applied
import Raspen.Consensus.Voting
import Raspen.Network.Core

/-!
# Agreement in REPAIR

The votes a replica counts come from a quorum of members, and two quorums share
a correct one.  A correct replica votes in one view of a round, and commits once
in a round; hence one history is applied in a round, whoever leads its views.
-/

namespace Raspen

open Raspen.Transition Raspen.Quorum Raspen.Network

variable {S : Type}

/-- `node` has emitted a REPAIR-PREPARE for `historyHash` in the view and round
of the slot. -/
def Prepared (network : Network S) (node : NodeId) (slot : UInt64 × UInt64)
    (historyHash : UInt64) : Prop :=
  .repairPrepare node slot.1 slot.2 historyHash ∈ (network node).messages

/-- `node` has emitted a REPAIR-PREPARE in `view` of `round`. -/
def PreparedIn (network : Network S) (node : NodeId) (round view : UInt64) : Prop :=
  ∃ historyHash, .repairPrepare node view round historyHash ∈ (network node).messages

/-- `node` has emitted a REPAIR-COMMIT for the view and hash of `vote` in
`round`. -/
def Committed (network : Network S) (node : NodeId) (round : UInt64)
    (vote : UInt64 × UInt64) : Prop :=
  .repairCommit node vote.1 round vote.2 ∈ (network node).messages

/-- Authentic votes of a quorum of senders certify what they vote for. -/
theorem certified_of_senders {cluster : Cluster} {network : Network S} {msgs : Finset Message}
    {pattern : Message → Bool} {vote : NodeId → Message} {κ α : Type} {slot : κ} {value : α}
    {votes : NodeId → κ → α → Prop}
    (pattern_iff : ∀ msg, pattern msg = true ↔ ∃ node, msg = vote node)
    (voteSender : ∀ node, (vote node).sender = some node)
    (voted : ∀ node, vote node ∈ (network node).messages → votes node slot value)
    (authentic : ∀ msg ∈ msgs, Authentic cluster network msg)
    (quorum : cluster.config.byzQuorum ≤ (senders pattern msgs).card) :
    cluster.faultModel.Certified votes slot value := by
  have isVote : ∀ node ∈ senders pattern msgs, Authentic cluster network (vote node) := by
    intro node nodeVotes
    rcases mem_senders_iff.mp nodeVotes with ⟨msg, msgMem, matched, sends⟩
    obtain ⟨voter, rfl⟩ := (pattern_iff msg).mp matched
    rw [voteSender] at sends
    cases sends
    exact authentic _ msgMem
  refine ⟨senders pattern msgs, ?_, quorum, ?_⟩
  · intro node nodeVotes
    exact (isVote node nodeVotes node (voteSender node)).1
  · intro node nodeVotes correct
    exact voted node ((isVote node nodeVotes node (voteSender node)).2 correct)

variable [KvStoreOps S] {cluster : Cluster} {stores : NodeId → S} {network : Network S}

/-! ## One commit for each round -/

/-- A correct replica commits to one history in one view of each round. -/
theorem committed_unique (run : Run cluster stores network) :
    ∀ node ∈ cluster.faultModel.correct, ∀ round vote vote',
      Committed network node round vote → Committed network node round vote' → vote = vote' := by
  intro node _ round vote vote' first second
  obtain ⟨viewEq, histEq⟩ := commitVote_unique (run.localRun node) first second
  exact Prod.ext viewEq histEq

/-- An applied history carries a commit certificate of its round. -/
theorem certified_of_applied (run : Run cluster stores network) {node : NodeId} {call : Call S}
    {replica : Replica S} {historyHash : UInt64} (callMem : call ∈ (network node).calls)
    (applied : Applied call replica historyHash) :
    cluster.faultModel.Certified (Committed network) replica.round
      (replica.view, historyHash) := by
  have quorum := doneBacked_of_localRun (run.localRun node) _
    (History.mem_effects_of_call callMem applied.done) _ _ _ _ rfl
  rw [config_of_localRun (run.localRun node)] at quorum
  have authentic : ∀ msg ∈ (network node).replica.repairCommitMsgs,
      Authentic cluster network msg :=
    fun msg stored => run.authentic_of_stores node ⟨_, by simp [Replica.inbox], stored⟩
  exact certified_of_senders (fun _ => Message.isRepairCommitFor_iff) (fun _ => rfl)
    (fun _ emitted => emitted) authentic quorum

/-- So does an emitted REPAIR-DONE. -/
theorem certified_of_done (run : Run cluster stores network) {node sender : NodeId}
    {view round historyHash : UInt64}
    (emitted : .repairDone sender view round historyHash ∈ (network node).messages) :
    cluster.faultModel.Certified (Committed network) round (view, historyHash) := by
  rcases List.mem_map.mp emitted with ⟨effect, effectMem, isDone⟩
  have quorum := doneBacked_of_localRun (run.localRun node) effect effectMem _ _ _ _ isDone
  rw [config_of_localRun (run.localRun node)] at quorum
  have authentic : ∀ msg ∈ (network node).replica.repairCommitMsgs,
      Authentic cluster network msg :=
    fun msg stored => run.authentic_of_stores node ⟨_, by simp [Replica.inbox], stored⟩
  exact certified_of_senders (fun _ => Message.isRepairCommitFor_iff) (fun _ => rfl)
    (fun _ emitted => emitted) authentic quorum

/-- Replicas that apply a history in the same round apply the same one. -/
theorem applied_unique (run : Run cluster stores network) {first second : NodeId}
    {call call' : Call S} (callMem : call ∈ (network first).calls)
    (callMem' : call' ∈ (network second).calls) {replica replica' : Replica S}
    {historyHash historyHash' : UInt64} (applied : Applied call replica historyHash)
    (applied' : Applied call' replica' historyHash') (sameRound : replica.round = replica'.round) :
    historyHash = historyHash' := by
  have certified := certified_of_applied run callMem applied
  have certified' := certified_of_applied run callMem' applied'
  rw [← sameRound] at certified'
  have same := FaultModel.certified_unique (committed_unique run) certified certified'
  exact (Prod.mk.inj same).2

/-- Two correct replicas that apply a history in the same round apply the same
one, so they start the next round with the same log size and start index. -/
theorem repair_agreement (run : Run cluster stores network) {first second : NodeId}
    (_firstCorrect : first ∈ cluster.correct) (_secondCorrect : second ∈ cluster.correct)
    {call call' : Call S} (callMem : call ∈ (network first).calls)
    (callMem' : call' ∈ (network second).calls) {round historyHash historyHash' : UInt64}
    (applies : call.AppliesIn round historyHash)
    (applies' : call'.AppliesIn round historyHash') :
    historyHash = historyHash' ∧ call.post.round = call'.post.round ∧
      call.post.kvSize = call'.post.kvSize ∧ call.post.startIdx = call'.post.startIdx := by
  rcases applied_of_appliesIn ((run.localRun first).step_of_mem_calls callMem) applies with
    ⟨replica, rfl, applied⟩
  rcases applied_of_appliesIn ((run.localRun second).step_of_mem_calls callMem') applies' with
    ⟨replica', sameRound, applied'⟩
  have sameHistory := applied_unique run callMem callMem' applied applied' sameRound.symm
  have sameNext : some call.post.round = some call'.post.round := by
    rw [← applied.round, ← applied'.round, sameRound]
  refine ⟨sameHistory, Option.some.inj sameNext, ?_, ?_⟩
  · rw [applied.kvSize, applied'.kvSize, sameHistory]
  · rw [applied.startIdx, applied'.startIdx, sameHistory]

section FourNodes

attribute [local instance] plainHasher

theorem repair_agreement_fourNodes :
    ∃ call ∈ (appliedNetwork "r1").calls, ∃ call' ∈ (appliedNetwork "r2").calls,
      call.post.round = call'.post.round ∧ call.post.kvSize = call'.post.kvSize := by
  have correct : "r1" ∈ fourNodes.correct ∧ "r2" ∈ fourNodes.correct := by decide
  have applies : ∃ call ∈ (appliedNetwork "r1").calls, call.AppliesIn 0 1 := by decide +kernel
  have applies' : ∃ call ∈ (appliedNetwork "r2").calls, call.AppliesIn 0 1 := by decide +kernel
  rcases applies with ⟨call, callMem, applies⟩
  rcases applies' with ⟨call', callMem', applies'⟩
  obtain ⟨_, sameRound, sameSize, _⟩ :=
    repair_agreement run_appliedNetwork correct.1 correct.2 callMem callMem' applies applies'
  exact ⟨call, callMem, call', callMem', sameRound, sameSize⟩

end FourNodes

/-! ## One view for the votes of a round -/

/-- A replica votes in one view of each round. -/
theorem preparedIn_unique (run : Run cluster stores network) :
    ∀ node ∈ cluster.faultModel.correct, ∀ round view view',
      PreparedIn network node round view → PreparedIn network node round view' →
        view = view' := by
  rintro node _ round view view' ⟨hist, first⟩ ⟨hist', second⟩
  rcases List.mem_map.mp first with ⟨effect, effectMem, isPrepare⟩
  rcases List.mem_map.mp second with ⟨effect', effectMem', isPrepare'⟩
  exact (emitted_of_localRun (run.localRun node)).oneView effect effectMem effect' effectMem'
    round view view' (roundView_eq_some_iff.mpr ⟨_, _, isPrepare⟩)
    (roundView_eq_some_iff.mpr ⟨_, _, isPrepare'⟩)

/-- Prepare certificates of one round live in one view, and no correct replica
broadcasts a REPAIR-PREPARE in two views of a round. -/
theorem prepare_certificates_one_view (run : Run cluster stores network) :
    (∀ view view' round hist hist',
      cluster.faultModel.Certified (Prepared network) (view, round) hist →
      cluster.faultModel.Certified (Prepared network) (view', round) hist' → view = view') ∧
    ∀ node ∈ cluster.correct, Agree roundView (network node).effects := by
  constructor
  · intro view view' round hist hist' first second
    have firstView : cluster.faultModel.Certified (PreparedIn network) round view :=
      first.imp fun _ prepared => ⟨hist, prepared⟩
    have secondView : cluster.faultModel.Certified (PreparedIn network) round view' :=
      second.imp fun _ prepared => ⟨hist', prepared⟩
    exact FaultModel.certified_unique (preparedIn_unique run) firstView secondView
  · intro node _
    exact (emitted_of_localRun (run.localRun node)).oneView

section FourNodes

attribute [local instance] plainHasher

theorem prepare_certificates_one_view_fourNodes :
    fourNodes.faultModel.Certified (Prepared lockedNetwork) (0, 0) 1 ∧ ∀ view hist,
      fourNodes.faultModel.Certified (Prepared lockedNetwork) (view, 0) hist → 0 = view := by
  have certified : fourNodes.faultModel.Certified (Prepared lockedNetwork) (0, 0) 1 := by
    refine ⟨{"r0", "r1", "r2"}, by decide, by decide, ?_⟩
    unfold Prepared
    decide +kernel
  refine ⟨certified, ?_⟩
  intro view hist other
  exact (prepare_certificates_one_view run_lockedNetwork).1 0 view 0 1 hist certified other

end FourNodes

/-! ## One lock for each view and round -/

/-- A replica in CommitPhase holds a prepare certificate for its proposal. -/
theorem certified_of_commitPhase (run : Run cluster stores network) {node : NodeId}
    (committing : (network node).replica.phase = .commitPhase) :
    cluster.faultModel.Certified (Prepared network)
      ((network node).replica.view, (network node).replica.round)
      (network node).replica.proposedHistoryHash := by
  have quorum := (evidence_of_localRun (run.localRun node)).prepared committing
  rw [config_of_localRun (run.localRun node)] at quorum
  have authentic : ∀ msg ∈ (network node).replica.repairPrepareMsgs,
      Authentic cluster network msg :=
    fun msg stored => run.authentic_of_stores node ⟨_, by simp [Replica.inbox], stored⟩
  exact certified_of_senders (fun _ => Message.isRepairPrepareFor_iff) (fun _ => rfl)
    (fun _ emitted => emitted) authentic quorum

/-- When every call of a correct replica in PreparePhase sees a single proposal,
two correct replicas in CommitPhase of one view and round are locked on the same
history. -/
theorem commit_lock_agreement (run : Run cluster stores network)
    (single : ∀ node ∈ cluster.correct, ∀ call ∈ (network node).calls, call.SingleProposal)
    {first second : NodeId} (_firstCorrect : first ∈ cluster.correct)
    (_secondCorrect : second ∈ cluster.correct)
    (committing : (network first).replica.phase = .commitPhase)
    (committing' : (network second).replica.phase = .commitPhase)
    (sameView : (network first).replica.view = (network second).replica.view)
    (sameRound : (network first).replica.round = (network second).replica.round) :
    (network first).replica.proposedHistoryHash =
      (network second).replica.proposedHistoryHash := by
  have once : ∀ node ∈ cluster.faultModel.correct, ∀ slot hist hist',
      Prepared network node slot hist → Prepared network node slot hist' → hist = hist' := by
    rintro node correct ⟨view, round⟩ hist hist' prepared prepared'
    rcases List.mem_map.mp prepared with ⟨effect, effectMem, isPrepare⟩
    rcases List.mem_map.mp prepared' with ⟨effect', effectMem', isPrepare'⟩
    exact (voted_of_localRun (run.localRun node) (single node correct)).agree effect effectMem
      effect' effectMem' (view, round) hist hist' (prepareVote_eq_some_iff.mpr ⟨_, isPrepare⟩)
      (prepareVote_eq_some_iff.mpr ⟨_, isPrepare'⟩)
  have certified := certified_of_commitPhase run committing
  have certified' := certified_of_commitPhase run committing'
  rw [← sameView, ← sameRound] at certified'
  exact FaultModel.certified_unique once certified certified'

section FourNodes

attribute [local instance] plainHasher

theorem commit_lock_agreement_fourNodes :
    (lockedNetwork "r1").replica.proposedHistoryHash =
      (lockedNetwork "r2").replica.proposedHistoryHash := by
  have correct : "r1" ∈ fourNodes.correct ∧ "r2" ∈ fourNodes.correct := by decide
  exact commit_lock_agreement run_lockedNetwork (by decide +kernel) correct.1 correct.2
    (by decide +kernel) (by decide +kernel) (by decide +kernel) (by decide +kernel)

/-- The leader sends a second proposal after the first replica has locked, and
the second replica votes again. -/
def splittingActions : List (NodeId × Input) :=
  ["r1", "r2", "r3"].map (deliver (.conflictProof 0 0)) ++
    ["r1", "r2"].map (deliver (.repairHistory "r0" 0 0 1)) ++
    ["r0", "r1", "r2"].map (fun voter => deliver (.repairPrepare voter 0 0 1) "r1") ++
    ["r2", "r3"].map (deliver (.repairHistory "r0" 0 0 2)) ++
    ["r0", "r2", "r3"].map (fun voter => deliver (.repairPrepare voter 0 0 2) "r2")

def splitNetwork : Network MemKvStore :=
  (execute (Network.next fourNodes) (Network.start fourNodes fun _ => MemKvStore.new)
    splittingActions).get (by decide +kernel)

/-- Two correct replicas lock on different histories in one view and round. -/
theorem commit_lock_split :
    ¬∀ network : Network MemKvStore, Run fourNodes (fun _ => MemKvStore.new) network →
      ∀ first ∈ fourNodes.correct, ∀ second ∈ fourNodes.correct,
        (network first).replica.phase = .commitPhase →
        (network second).replica.phase = .commitPhase →
        (network first).replica.view = (network second).replica.view →
        (network first).replica.round = (network second).replica.round →
        (network first).replica.proposedHistoryHash =
          (network second).replica.proposedHistoryHash := by
  intro agree
  have run : Run fourNodes (fun _ => MemKvStore.new) splitNetwork :=
    reachable_of_execute (Option.some_get _).symm
  have same := agree splitNetwork run "r1" (by decide) "r2" (by decide) (by decide +kernel)
    (by decide +kernel) (by decide +kernel) (by decide +kernel)
  have different : (splitNetwork "r1").replica.proposedHistoryHash ≠
      (splitNetwork "r2").replica.proposedHistoryHash := by
    decide +kernel
  exact different same

end FourNodes

end Raspen
