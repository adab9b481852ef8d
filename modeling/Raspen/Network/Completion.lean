import Raspen.Consensus.Equivocation
import Raspen.Consensus.Rounds
import Raspen.Consensus.Standing
import Raspen.Consensus.Wakeup
import Raspen.Network.Proposal
import Raspen.Transition.Execution
import Mathlib.Data.FinEnum
import Mathlib.Order.Filter.Finite

/-!
# A view with a correct leader ends its round

Suppose that every correct replica enters REPAIR of a round in one view, that none of them
gives the view up, and that its leader is correct.  Once their messages have arrived, in any
order, they have all left the round: a replica that has heard everything does not wait.
Byzantine replicas must not propose histories, cast prepare votes or report a finished round;
their LOGs, commit votes and other messages do no harm.
-/

namespace Raspen

open Raspen.Transition Raspen.Quorum

variable {S : Type}

/-- A message of the REPAIR agreement of `view` in `round`. -/
def Message.inAgreement (view round : UInt64) : Message → Bool
  | .logMsg _ v r _ | .repairHistory _ v r _ | .repairPrepare _ v r _ | .repairCommit _ v r _
  | .repairDone _ v r _ => v == view && r == round
  | _ => false

/-- A message of the kinds with which one replica can lead another one astray. -/
def Message.misleads (view round : UInt64) : Message → Bool
  | .repairHistory _ v r _ | .repairPrepare _ v r _ | .repairDone _ v r _ =>
      v == view && r == round
  | _ => false

theorem Message.inAgreement_of_misleads {view round : UInt64} {msg : Message}
    (misleads : msg.misleads view round = true) : msg.inAgreement view round = true := by
  cases msg <;> first | exact misleads | contradiction

theorem Message.isRepair_of_inAgreement {view round : UInt64} {msg : Message}
    (inAgreement : msg.inAgreement view round = true) : msg.isRepair = true := by
  cases msg <;> first | rfl | contradiction

instance (history : History S) (msg : Message) : Decidable (history.Delivered msg) :=
  inferInstanceAs (Decidable (∃ call ∈ history.calls, _))

/-! ## A replica that has heard its own LOG waits for others -/

section Waking

/-- A waiting replica that holds a history is not collecting. -/
theorem voting_of_waiting {replica : Replica S} (waiting : Waiting replica)
    (isRepair : replica.phase.isRepair = true) {proposer : NodeId} {historyHash : UInt64}
    (stored : .repairHistory proposer replica.view replica.round historyHash ∈
      replica.repairHistoryMsgs) :
    replica.phase = .preparePhase ∨ replica.phase = .commitPhase := by
  cases phase : replica.phase with
  | speculative | aligning => simp [phase, Phase.isRepair] at isRepair
  | preparePhase => exact .inl rfl
  | commitPhase => exact .inr rfl
  | collectingLogs =>
      have due : canRepairPrepare .greatest replica ≠ none := by
        intro silent
        rw [canRepairPrepare, if_neg (by simp [phase])] at silent
        have missed := HashOrder.greatest.complete silent _ stored
        rw [historyFor_eq_some_iff.mpr ⟨proposer, rfl⟩] at missed
        contradiction
      have preparing := waiting.repairPrepare _ due
      rw [phase] at preparing
      contradiction

variable [KvStoreOps S]

/-- The timers other than the view timer leave the state alone. -/
theorem eq_of_event {timer : Event} {replica post : Replica S} {effects : List Effect}
    (other : timer ≠ .repairViewTimeout)
    (handled : handleEvent replica timer = some (post, effects)) : post = replica := by
  have keeps : Preserves perform (eventStages timer) (fun _ _ => True)
      fun state : Replica S => state = replica := by
    constructor
    · intro stage stageMem state same
      simp only [eventStages, List.mem_cons, List.not_mem_nil, or_false] at stageMem
      rcases stageMem with rfl | rfl | rfl <;> exact same
    · intro stage stageMem state cue next emitted same _ listens performs
      simp only [eventStages, List.mem_cons, List.not_mem_nil, or_false] at stageMem
      rcases stageMem with rfl | rfl | rfl <;>
        rcases Option.map_eq_some_iff.mp listens with ⟨_, guard, rfl⟩
      · cases performs
        exact same
      · cases performs
        exact same
      · exact absurd (canViewChange_eq_some_iff.mp guard).2.1 other
  exact runStages_preserves (P := fun state => state = replica) keeps rfl handled

/-- A timer leaves the state alone or changes the view. -/
theorem event_cases {timer : Event} {replica post : Replica S} {effects : List Effect}
    (steps : step replica (.event timer) = some (post, effects)) :
    post = replica ∨ ∃ view, addU64 replica.view 1 = some view ∧
      post = { replica with view := view } := by
  have handled : handleEvent replica timer = some (post, effects) := steps
  by_cases isView : timer = .repairViewTimeout
  · rw [isView, handleEvent_repairViewTimeout] at handled
    split at handled
    · rcases Option.bind_eq_some_iff.mp handled with ⟨view, advanced, changed⟩
      cases changed
      exact .inr ⟨view, advanced, rfl⟩
    · cases handled
      exact .inl rfl
  · exact .inl (eq_of_event isView handled)

end Waking

namespace Network

variable [KvStoreOps S] {cluster : Cluster} {stores : NodeId → S} {network : Network S}

/-- Whoever has heard its own LOG for its view and round waits for other messages.  A view
change alone can leave a handler due, until that LOG arrives. -/
theorem waiting_of_own_log (run : Run cluster stores network) {node : NodeId}
    (isCorrect : node ∈ cluster.correct) {logHash : Hash}
    (heard : .logMsg node (network node).replica.view (network node).replica.round logHash ∈
      (network node).replica.logMsgs) : Waiting (network node).replica := by
  revert heard
  apply run.invariant (P := fun network =>
    .logMsg node (network node).replica.view (network node).replica.round logHash ∈
      (network node).replica.logMsgs → Waiting (network node).replica)
  · intro heard
    simp [start, History.start, Replica.new] at heard
  · intro earlier later action before ih steps
    rcases next_eq_some_iff.mp steps with ⟨_, _, history, served, rfl⟩
    by_cases same : node = action.1
    · subst same
      rw [Function.update_self]
      rcases History.next_eq_some_iff.mp served with ⟨post, effects, performed, rfl⟩
      intro heard
      cases input : action.2 with
      | message order msg =>
          rw [input] at performed
          exact waiting_of_processMessage performed
      | event timer =>
          rw [input] at performed
          rcases event_cases performed with rfl | ⟨view, advanced, rfl⟩
          · exact ih heard
          · -- a LOG for the new view has not been sent before
            have stored : (earlier action.1).replica.Stores
                (.logMsg action.1 view (earlier action.1).replica.round logHash) :=
              ⟨_, by simp [Replica.inbox], heard⟩
            have authentic := Run.authentic_of_stores before action.1 stored
            have emitted := (authentic action.1 rfl).2 isCorrect
            rcases List.mem_map.mp emitted with ⟨effect, effectMem, isLog⟩
            have spent :=
              (emitted_of_localRun (Run.localRun before action.1)).spent effect effectMem
            rw [isLog] at spent
            have grows := UInt64.lt_iff_toNat_lt.mp (lt_of_addU64_one advanced)
            rcases spent with past | ⟨_, _, viewLe, _⟩
            · exact absurd past (Nat.lt_irrefl _)
            · exact absurd grows (Nat.not_lt.mpr viewLe)
    · rw [Function.update_of_ne same]
      exact ih

/-! ## When all messages have arrived -/

omit [KvStoreOps S] in
/-- The messages by which `sender` can take part in the agreement on `historyHash`. -/
def ballots (view round : UInt64) (sender : NodeId) (historyHash : UInt64) : List Message :=
  [.repairHistory sender view round historyHash, .repairPrepare sender view round historyHash,
    .repairCommit sender view round historyHash, .repairDone sender view round historyHash]

/-- All correct replicas have entered REPAIR of `round` in `view`, none has given the view up,
and what they have sent for it has arrived; nothing else that could mislead them has. -/
structure Settled (cluster : Cluster) (network : Network S) (view round : UInt64) : Prop where
  leader : ∃ leader ∈ cluster.correct, cluster.config.leader view = some leader
  engaged : ∀ node ∈ cluster.correct, ∃ logHash,
    .logMsg node view round logHash ∈ (network node).messages ∧
      ∀ other ∈ cluster.correct, (network other).Delivered (.logMsg node view round logHash)
  patient : ∀ node ∈ cluster.correct, ∀ later logHash,
    .logMsg node later round logHash ∈ (network node).messages → later.toNat ≤ view.toNat
  arrived : ∀ sender ∈ cluster.correct, ∀ historyHash,
    ∀ msg ∈ ballots view round sender historyHash, msg ∈ (network sender).messages →
      ∀ node ∈ cluster.correct, (network node).Delivered msg
  unmisled : ∀ node ∈ cluster.correct, ∀ msg, (network node).Delivered msg →
    msg.misleads view round = true → ∀ sender ∈ msg.sender, sender ∈ cluster.correct

namespace Settled

variable {view round : UInt64}

/-- What one correct replica holds of the misleading kinds, all hold. -/
theorem shared (run : Run cluster stores network) (settled : Settled cluster network view round)
    {node other : NodeId} (isCorrect : node ∈ cluster.correct)
    (otherCorrect : other ∈ cluster.correct)
    {msg : Message} (misleads : msg.misleads view round = true)
    (stored : (network node).replica.Stores msg) :
    (network other).replica.store msg = (network other).replica ∧
      ∃ sender ∈ msg.sender, sender ∈ cluster.correct ∧ msg ∈ (network sender).messages := by
  have delivered := delivered_of_stores (run.localRun node) (.inl rfl) stored
  have authentic := run.authentic_of_stores node stored
  have ballot :
      ∃ sender ∈ msg.sender, ∃ historyHash, msg ∈ ballots view round sender historyHash := by
    cases msg <;> simp_all [Message.misleads, Message.sender, ballots]
  obtain ⟨sender, isSender, historyHash, isBallot⟩ := ballot
  have senderCorrect := settled.unmisled node isCorrect msg delivered misleads sender isSender
  have emitted := (authentic sender isSender).2 senderCorrect
  constructor
  · apply store_eq_of_delivered (run.localRun other)
    · exact Message.isRepair_of_inAgreement (Message.inAgreement_of_misleads misleads)
    · exact settled.arrived sender senderCorrect historyHash msg isBallot emitted other otherCorrect
  · exact ⟨sender, isSender, senderCorrect, emitted⟩

/-- A stored history was proposed by the leader, and all store it. -/
theorem of_history (run : Run cluster stores network)
    (settled : Settled cluster network view round) {node : NodeId}
    (isCorrect : node ∈ cluster.correct) {sender : NodeId} {historyHash : UInt64}
    (stored : .repairHistory sender view round historyHash ∈
      (network node).replica.repairHistoryMsgs) :
    cluster.config.leader view = some sender ∧
      .repairHistory sender view round historyHash ∈ (network sender).messages ∧
        ∀ other ∈ cluster.correct, .repairHistory sender view round historyHash ∈
          (network other).replica.repairHistoryMsgs := by
  have holds : (network node).replica.Stores (.repairHistory sender view round historyHash) :=
    ⟨_, by simp [Replica.inbox], stored⟩
  have misleads : (Message.repairHistory sender view round historyHash).misleads view round =
      true := by
    simp [Message.misleads]
  obtain ⟨_, proposer, isSender, _, emitted⟩ :=
    settled.shared run isCorrect isCorrect misleads holds
  cases isSender
  refine ⟨(exists_proposal_of_emitted (run.localRun sender) emitted).2.1, emitted, ?_⟩
  intro other otherCorrect
  have shared := (settled.shared run isCorrect otherCorrect misleads holds).1
  exact mem_of_store_eq (·.repairHistoryMsgs) shared (Finset.mem_insert_self _ _)

/-- A correct replica votes for a history that it has stored. -/
theorem history_of_prepare (run : Run cluster stores network) {node sender : NodeId}
    {historyHash : UInt64}
    (emitted : .repairPrepare sender view round historyHash ∈ (network node).messages) :
    ∃ proposer, .repairHistory proposer view round historyHash ∈
      (network node).replica.repairHistoryMsgs := by
  rcases exists_vote_of_emitted (run.localRun node) emitted with
    ⟨call, callMem, replica, fires, rfl, rfl⟩
  rcases Call.guard_of_mem_cues fires with ⟨order, msg, _, votes⟩
  obtain ⟨_, proposer, stored⟩ := canRepairPrepare_eq_some votes
  have delivered := delivered_of_stores (run.localRun node) (.inr ⟨call, callMem, _, fires⟩)
    ⟨_, by simp [Replica.inbox], stored⟩
  have kept := store_eq_of_delivered (run.localRun node) rfl delivered
  exact ⟨proposer, mem_of_store_eq (·.repairHistoryMsgs) kept (Finset.mem_insert_self _ _)⟩

/-- Stored prepare votes are for a stored history. -/
theorem history_of_stored_prepare (run : Run cluster stores network)
    (settled : Settled cluster network view round) {node sender : NodeId}
    (isCorrect : node ∈ cluster.correct) {historyHash : UInt64}
    (stored : .repairPrepare sender view round historyHash ∈
      (network node).replica.repairPrepareMsgs) :
    ∃ proposer, .repairHistory proposer view round historyHash ∈
      (network node).replica.repairHistoryMsgs := by
  have holds : (network node).replica.Stores (.repairPrepare sender view round historyHash) :=
    ⟨_, by simp [Replica.inbox], stored⟩
  have misleads : (Message.repairPrepare sender view round historyHash).misleads view round =
      true := by
    simp [Message.misleads]
  obtain ⟨_, voter, isSender, voterCorrect, emitted⟩ :=
    settled.shared run isCorrect isCorrect misleads holds
  cases isSender
  obtain ⟨proposer, proposed⟩ := history_of_prepare run emitted
  exact ⟨proposer, (settled.of_history run voterCorrect proposed).2.2 node isCorrect⟩

theorem history_of_quorum (run : Run cluster stores network)
    (settled : Settled cluster network view round) {node : NodeId}
    (isCorrect : node ∈ cluster.correct) {historyHash : UInt64}
    (quorum : cluster.config.byzQuorum ≤ ((network node).replica.repairPrepareMsgs.filter
      (·.isRepairPrepareFor view round historyHash)).card) :
    ∃ proposer, .repairHistory proposer view round historyHash ∈
      (network node).replica.repairHistoryMsgs := by
  have enough : 0 < ((network node).replica.repairPrepareMsgs.filter
      (·.isRepairPrepareFor view round historyHash)).card := by
    have := cluster.byzQuorum_eq
    have := cluster.resilient
    omega
  obtain ⟨msg, msgMem⟩ := Finset.card_pos.mp enough
  obtain ⟨stored, matched⟩ := Finset.mem_filter.mp msgMem
  obtain ⟨voter, rfl⟩ := Message.isRepairPrepareFor_iff.mp matched
  exact settled.history_of_stored_prepare run isCorrect stored

/-- A correct replica is still in REPAIR of the round, or has left it. -/
theorem inside_or_finished (run : Run cluster stores network)
    (settled : Settled cluster network view round) {node : NodeId}
    (isCorrect : node ∈ cluster.correct) :
    ((network node).replica.view = view ∧ (network node).replica.round = round ∧
        (network node).replica.phase.isRepair = true ∧ Waiting (network node).replica) ∨
      (round.toNat < (network node).replica.round.toNat ∧
        Departed view round (network node).replica (network node).effects) := by
  obtain ⟨logHash, emitted, heard⟩ := settled.engaged node isCorrect
  have nodeId_eq : (network node).replica.nodeId = node :=
    nodeId_of_visits (run.localRun node) (.inl rfl)
  have follows := followsLogs_of_localRun (run.localRun node)
  rw [FollowsLogs, nodeId_eq] at follows
  cases follows view round logHash emitted with
  | passed passed sent =>
      rw [nodeId_eq] at sent
      exact absurd passed (Nat.not_lt.mpr (settled.patient node isCorrect _ _ sent))
  | inside viewEq roundEq isRepair =>
      left
      have kept := store_eq_of_delivered (run.localRun node) rfl (heard node isCorrect)
      have own := mem_of_store_eq (·.logMsgs) kept (Finset.mem_insert_self _ _)
      rw [← viewEq, ← roundEq] at own
      exact ⟨viewEq, roundEq, isRepair, waiting_of_own_log run isCorrect own⟩
  | finished ended finished => exact .inr ⟨ended, finished⟩

omit [KvStoreOps S] in
/-- The correct replicas are a quorum by themselves. -/
theorem quorum_le_correct (cluster : Cluster) :
    cluster.config.byzQuorum ≤ cluster.correct.card := by
  have split : cluster.correct.card + cluster.byzantine.card = cluster.members.card :=
    Finset.card_sdiff_add_card_eq_card cluster.byzantine_subset
  have := cluster.card_members
  have := cluster.byzQuorum_eq
  have := cluster.byzantine_le
  omega

omit [KvStoreOps S] in
/-- A vote from every correct replica is a quorum. -/
theorem quorum_of_all {msgs : Finset Message} {pattern : Message → Bool} (vote : NodeId → Message)
    (distinct : Function.Injective vote) (matched : ∀ node, pattern (vote node) = true)
    (stored : ∀ node ∈ cluster.correct, vote node ∈ msgs) :
    cluster.config.byzQuorum ≤ (msgs.filter (pattern ·)).card := by
  apply (quorum_le_correct cluster).trans
  apply Finset.card_le_card_of_injOn vote
  · intro node isCorrect
    exact Finset.mem_filter.mpr ⟨stored node isCorrect, matched node⟩
  · exact distinct.injOn

/-- The leader does not go on collecting when it has heard all LOGs. -/
theorem leader_not_collecting (run : Run cluster stores network)
    (settled : Settled cluster network view round) {leader : NodeId}
    (isCorrect : leader ∈ cluster.correct) (leads : cluster.config.leader view = some leader)
    (viewEq : (network leader).replica.view = view)
    (roundEq : (network leader).replica.round = round)
    (waiting : Waiting (network leader).replica) :
    (network leader).replica.phase ≠ .collectingLogs := by
  intro collecting
  have config_eq := config_of_localRun (run.localRun leader)
  have isLeader : (network leader).replica.isLeader = true := by
    rw [Replica.isLeader_iff, config_eq, viewEq, leads,
      nodeId_of_visits (run.localRun leader) (.inl rfl)]
  have heard : cluster.correct ⊆
      logSenders view round (network leader).replica.logMsgs := by
    intro node nodeCorrect
    obtain ⟨logHash, _, arrived⟩ := settled.engaged node nodeCorrect
    have kept := store_eq_of_delivered (run.localRun leader) rfl (arrived leader isCorrect)
    rw [logSenders_eq_senders]
    apply mem_senders_iff.mpr
    exact ⟨_, mem_of_store_eq (·.logMsgs) kept (Finset.mem_insert_self _ _),
      by simp [Message.isLogMsgAt], rfl⟩
  have quorum : (network leader).replica.config.byzQuorum ≤
      (logSenders view round (network leader).replica.logMsgs).card := by
    rw [config_eq]
    exact (quorum_le_correct cluster).trans (Finset.card_le_card heard)
  rw [← viewEq, ← roundEq] at quorum
  have proposes := canBroadcastHistory_eq_some_iff.mpr ⟨collecting, isLeader, quorum, rfl⟩
  rw [waiting.broadcastHistory] at proposes
  contradiction

/-- A replica in a voting phase holds a history with its proposed hash. -/
theorem history_of_voting (run : Run cluster stores network)
    (settled : Settled cluster network view round) {node : NodeId}
    (isCorrect : node ∈ cluster.correct) (viewEq : (network node).replica.view = view)
    (roundEq : (network node).replica.round = round)
    (voting : (network node).replica.phase = .preparePhase ∨
      (network node).replica.phase = .commitPhase) :
    ∃ proposer, .repairHistory proposer view round (network node).replica.proposedHistoryHash ∈
      (network node).replica.repairHistoryMsgs := by
  have standing := standing_of_localRun (run.localRun node)
  have nodeId_eq := nodeId_of_visits (run.localRun node) (.inl rfl)
  rcases standing.proposal voting with ⟨proposer, stored⟩ | emitted
  · rw [viewEq, roundEq] at stored
    exact ⟨proposer, stored⟩
  · rw [viewEq, roundEq, nodeId_eq] at emitted
    have delivered := settled.arrived node isCorrect _ _ List.mem_cons_self emitted node isCorrect
    have kept := store_eq_of_delivered (run.localRun node) rfl delivered
    exact ⟨node, mem_of_store_eq (·.repairHistoryMsgs) kept (Finset.mem_insert_self _ _)⟩

omit [KvStoreOps S] in
/-- All correct replicas hold one and the same history. -/
def SoleProposal (cluster : Cluster) (network : Network S) (view round historyHash : UInt64) :
    Prop :=
  ∀ node ∈ cluster.correct,
    (∃ proposer, .repairHistory proposer view round historyHash ∈
      (network node).replica.repairHistoryMsgs) ∧
    ∀ proposer hist, .repairHistory proposer view round hist ∈
      (network node).replica.repairHistoryMsgs → hist = historyHash

theorem exists_proposal (run : Run cluster stores network)
    (settled : Settled cluster network view round) :
    ∃ historyHash, SoleProposal cluster network view round historyHash := by
  obtain ⟨leader, isCorrect, leads⟩ := settled.leader
  have known : ∃ proposer historyHash, .repairHistory proposer view round historyHash ∈
      (network leader).replica.repairHistoryMsgs := by
    rcases settled.inside_or_finished run isCorrect with
      ⟨viewEq, roundEq, isRepair, waiting⟩ | ⟨_, finished⟩
    · have notCollecting :=
        settled.leader_not_collecting run isCorrect leads viewEq roundEq waiting
      have voting : (network leader).replica.phase = .preparePhase ∨
          (network leader).replica.phase = .commitPhase := by
        cases phase : (network leader).replica.phase <;> simp_all [Phase.isRepair]
      obtain ⟨proposer, stored⟩ :=
        settled.history_of_voting run isCorrect viewEq roundEq voting
      exact ⟨proposer, _, stored⟩
    · cases finished with
      | @applied historyHash _ quorum =>
          rw [config_of_localRun (run.localRun leader)] at quorum
          obtain ⟨proposer, proposed⟩ := settled.history_of_quorum run isCorrect quorum
          exact ⟨proposer, historyHash, proposed⟩
      | caughtUp _ proposed =>
          obtain ⟨msg, msgMem⟩ := proposed
          obtain ⟨stored, matched⟩ := Finset.mem_filter.mp msgMem
          obtain ⟨proposer, historyHash, rfl⟩ := Message.isRepairHistoryAt_iff.mp matched
          exact ⟨proposer, historyHash, stored⟩
  obtain ⟨proposer, historyHash, stored⟩ := known
  obtain ⟨proposerLeads, emitted, all⟩ := settled.of_history run isCorrect stored
  refine ⟨historyHash, fun node nodeCorrect => ⟨⟨proposer, all node nodeCorrect⟩, ?_⟩⟩
  intro other hist otherStored
  obtain ⟨otherLeads, otherEmitted, _⟩ := settled.of_history run nodeCorrect otherStored
  rw [proposerLeads] at otherLeads
  cases otherLeads
  rcases List.mem_map.mp emitted with ⟨effect, effectMem, isHistory⟩
  rcases List.mem_map.mp otherEmitted with ⟨effect', effectMem', isHistory'⟩
  have once := (emitted_of_localRun (run.localRun proposer)).once.history
  have same := once.eq_of_slot effectMem effectMem'
    (historySlot_eq_some_iff.mpr ⟨_, _, _, isHistory⟩)
    (historySlot_eq_some_iff.mpr ⟨_, _, _, isHistory'⟩)
  rw [← same, isHistory] at isHistory'
  cases isHistory'
  rfl

/-- Prepare votes that one correct replica holds, all hold. -/
theorem prepares_subset (run : Run cluster stores network)
    (settled : Settled cluster network view round) {node other : NodeId}
    (isCorrect : node ∈ cluster.correct) (otherCorrect : other ∈ cluster.correct)
    (historyHash : UInt64) :
    (network node).replica.repairPrepareMsgs.filter
        (·.isRepairPrepareFor view round historyHash) ⊆
      (network other).replica.repairPrepareMsgs.filter
        (·.isRepairPrepareFor view round historyHash) := by
  intro msg msgMem
  obtain ⟨stored, matched⟩ := Finset.mem_filter.mp msgMem
  obtain ⟨voter, rfl⟩ := Message.isRepairPrepareFor_iff.mp matched
  have kept := (settled.shared run isCorrect otherCorrect (by simp [Message.misleads])
    ⟨_, by simp [Replica.inbox], stored⟩).1
  exact Finset.mem_filter.mpr
    ⟨mem_of_store_eq (·.repairPrepareMsgs) kept (Finset.mem_insert_self _ _), matched⟩

/-- So do REPAIR-DONEs. -/
theorem dones_subset (run : Run cluster stores network)
    (settled : Settled cluster network view round) {node other : NodeId}
    (isCorrect : node ∈ cluster.correct) (otherCorrect : other ∈ cluster.correct) :
    (network node).replica.repairDoneMsgs.filter (·.isRepairDoneAt view round) ⊆
      (network other).replica.repairDoneMsgs.filter (·.isRepairDoneAt view round) := by
  intro msg msgMem
  obtain ⟨stored, matched⟩ := Finset.mem_filter.mp msgMem
  have misleads : msg.misleads view round = true := by
    cases msg <;> first | exact matched | contradiction
  have kept := (settled.shared run isCorrect otherCorrect misleads
    ⟨_, by simp [Replica.inbox], stored⟩).1
  have held : msg ∈ (network other).replica.repairDoneMsgs := by
    cases msg with
    | repairDone => exact mem_of_store_eq (·.repairDoneMsgs) kept (Finset.mem_insert_self _ _)
    | _ => contradiction
  exact Finset.mem_filter.mpr ⟨held, matched⟩

/-- A replica that is still in the round waits in a voting phase, for the sole proposal. -/
theorem voting_inside (run : Run cluster stores network)
    (settled : Settled cluster network view round) {historyHash : UInt64}
    (sole : SoleProposal cluster network view round historyHash) {node : NodeId}
    (isCorrect : node ∈ cluster.correct) (viewEq : (network node).replica.view = view)
    (roundEq : (network node).replica.round = round)
    (isRepair : (network node).replica.phase.isRepair = true)
    (waiting : Waiting (network node).replica) :
    ((network node).replica.phase = .preparePhase ∨
        (network node).replica.phase = .commitPhase) ∧
      (network node).replica.proposedHistoryHash = historyHash := by
  obtain ⟨⟨proposer, stored⟩, unique⟩ := sole node isCorrect
  rw [← viewEq, ← roundEq] at stored
  have voting := voting_of_waiting waiting isRepair stored
  obtain ⟨proposer', proposed⟩ := settled.history_of_voting run isCorrect viewEq roundEq voting
  exact ⟨voting, unique proposer' _ proposed⟩

omit [KvStoreOps S] in
/-- `node` holds enough REPAIR-DONEs to catch up. -/
def MayCatchUp (network : Network S) (view round : UInt64) (node : NodeId) : Prop :=
  (network node).replica.config.fPlus1 ≤
    ((network node).replica.repairDoneMsgs.filter (·.isRepairDoneAt view round)).card

/-- A replica that cannot catch up has voted, or holds a quorum of votes. -/
theorem prepared_or_locked (run : Run cluster stores network)
    (settled : Settled cluster network view round) {historyHash : UInt64}
    (sole : SoleProposal cluster network view round historyHash) {node : NodeId}
    (isCorrect : node ∈ cluster.correct)
    (notCaughtUp : ¬MayCatchUp network view round node) :
    .repairPrepare node view round historyHash ∈ (network node).messages ∨
      cluster.config.byzQuorum ≤ ((network node).replica.repairPrepareMsgs.filter
        (·.isRepairPrepareFor view round historyHash)).card := by
  have config_eq := config_of_localRun (run.localRun node)
  rcases settled.inside_or_finished run isCorrect with
    ⟨viewEq, roundEq, isRepair, waiting⟩ | ⟨_, finished⟩
  · obtain ⟨preparing | committing, proposed⟩ :=
      settled.voting_inside run sole isCorrect viewEq roundEq isRepair waiting
    · left
      obtain ⟨⟨proposer, stored⟩, _⟩ := sole node isCorrect
      rw [← viewEq, ← roundEq] at stored
      rcases hasVoted_of_localRun (run.localRun node) preparing proposer historyHash stored with
        ⟨effect, effectMem, votes⟩
      obtain ⟨sender, isPrepare⟩ := prepareVote_eq_some_iff.mp votes
      have emitted : .repairPrepare sender view round historyHash ∈ (network node).messages := by
        rw [← viewEq, ← roundEq, ← proposed]
        exact List.mem_map.mpr ⟨effect, effectMem, isPrepare⟩
      have own := sender_of_prepare (run.localRun node) emitted
      rw [own] at emitted
      exact emitted
    · right
      have quorum := (evidence_of_localRun (run.localRun node)).prepared committing
      rw [card_prepareSenders, viewEq, roundEq, proposed, config_eq] at quorum
      exact quorum
  · right
    cases finished with
    | applied _ quorum =>
        rw [config_eq] at quorum
        obtain ⟨proposer, stored⟩ := settled.history_of_quorum run isCorrect quorum
        rw [(sole node isCorrect).2 proposer _ stored] at quorum
        exact quorum
    | caughtUp enough _ => exact absurd enough notCaughtUp

/-- As long as nobody can catch up, every correct replica holds a quorum of prepare votes. -/
theorem prepared_everywhere (run : Run cluster stores network)
    (settled : Settled cluster network view round) {historyHash : UInt64}
    (sole : SoleProposal cluster network view round historyHash)
    (nobodyCaughtUp : ∀ node ∈ cluster.correct, ¬MayCatchUp network view round node)
    {other : NodeId} (otherCorrect : other ∈ cluster.correct) :
    cluster.config.byzQuorum ≤ ((network other).replica.repairPrepareMsgs.filter
      (·.isRepairPrepareFor view round historyHash)).card := by
  by_cases locked : ∃ node ∈ cluster.correct, cluster.config.byzQuorum ≤
      ((network node).replica.repairPrepareMsgs.filter
        (·.isRepairPrepareFor view round historyHash)).card
  · obtain ⟨node, isCorrect, quorum⟩ := locked
    exact quorum.trans (Finset.card_le_card
      (settled.prepares_subset run isCorrect otherCorrect historyHash))
  · apply quorum_of_all fun node => .repairPrepare node view round historyHash
    · intro first second same
      cases same
      rfl
    · intro node
      simp [Message.isRepairPrepareFor]
    · intro node isCorrect
      rcases settled.prepared_or_locked run sole isCorrect (nobodyCaughtUp node isCorrect) with
        emitted | quorum
      · have delivered := settled.arrived node isCorrect historyHash _
          (by simp [ballots]) emitted other otherCorrect
        have kept := store_eq_of_delivered (run.localRun other) rfl delivered
        exact mem_of_store_eq (·.repairPrepareMsgs) kept (Finset.mem_insert_self _ _)
      · exact absurd ⟨node, isCorrect, quorum⟩ locked

/-- As long as nobody can catch up, every correct replica has sent its commit vote. -/
theorem committed_everywhere (run : Run cluster stores network)
    (settled : Settled cluster network view round) {historyHash : UInt64}
    (sole : SoleProposal cluster network view round historyHash)
    (nobodyCaughtUp : ∀ node ∈ cluster.correct, ¬MayCatchUp network view round node)
    {node : NodeId} (isCorrect : node ∈ cluster.correct) :
    .repairCommit node view round historyHash ∈ (network node).messages := by
  have config_eq := config_of_localRun (run.localRun node)
  have nodeId_eq : (network node).replica.nodeId = node :=
    nodeId_of_visits (run.localRun node) (.inl rfl)
  rcases settled.inside_or_finished run isCorrect with
    ⟨viewEq, roundEq, isRepair, waiting⟩ | ⟨_, finished⟩
  · obtain ⟨preparing | committing, proposed⟩ :=
      settled.voting_inside run sole isCorrect viewEq roundEq isRepair waiting
    · have quorum := settled.prepared_everywhere run sole nobodyCaughtUp isCorrect
      rw [← viewEq, ← roundEq, ← config_eq] at quorum
      have due := canRepairCommit_eq_some_iff.mpr ⟨preparing, proposed.symm, quorum⟩
      rw [waiting.repairCommit] at due
      contradiction
    · have sent := (standing_of_localRun (run.localRun node)).commitVote committing
      rw [viewEq, roundEq, proposed, nodeId_eq] at sent
      exact sent
  · cases finished with
    | applied sent quorum =>
        rw [config_eq] at quorum
        obtain ⟨proposer, stored⟩ := settled.history_of_quorum run isCorrect quorum
        rw [(sole node isCorrect).2 proposer _ stored, nodeId_eq] at sent
        exact sent
    | caughtUp enough _ => exact absurd enough (nobodyCaughtUp node isCorrect)

/-- Nobody is left in the round. -/
theorem round_ended (run : Run cluster stores network)
    (settled : Settled cluster network view round) {node : NodeId}
    (isCorrect : node ∈ cluster.correct) : round.toNat < (network node).replica.round.toNat := by
  obtain ⟨historyHash, sole⟩ := settled.exists_proposal run
  have config_eq := config_of_localRun (run.localRun node)
  rcases settled.inside_or_finished run isCorrect with
    ⟨viewEq, roundEq, isRepair, waiting⟩ | ⟨ended, _⟩
  · exfalso
    obtain ⟨voting, proposed⟩ :=
      settled.voting_inside run sole isCorrect viewEq roundEq isRepair waiting
    by_cases caughtUp : ∃ other ∈ cluster.correct, MayCatchUp network view round other
    · -- the same REPAIR-DONEs let this replica catch up, too
      obtain ⟨other, otherCorrect, enough⟩ := caughtUp
      rw [MayCatchUp, config_of_localRun (run.localRun other)] at enough
      have dones := enough.trans
        (Finset.card_le_card (settled.dones_subset run otherCorrect isCorrect))
      obtain ⟨⟨proposer, stored⟩, _⟩ := sole node isCorrect
      have proposal : ((network node).replica.repairHistoryMsgs.filter
          (·.isRepairHistoryAt view round)).Nonempty :=
        ⟨_, Finset.mem_filter.mpr ⟨stored, by simp [Message.isRepairHistoryAt]⟩⟩
      rw [← viewEq, ← roundEq] at dones proposal
      rw [← config_eq] at dones
      have due := canRepairDoneCatchup_eq_some_iff.mpr ⟨.inr voting, dones, proposal, rfl⟩
      rw [waiting.repairDoneCatchup] at due
      contradiction
    · have nobodyCaughtUp : ∀ other ∈ cluster.correct, ¬MayCatchUp network view round other :=
        fun other otherCorrect enough => caughtUp ⟨other, otherCorrect, enough⟩
      rcases voting with preparing | committing
      · have prepares := settled.prepared_everywhere run sole nobodyCaughtUp isCorrect
        rw [← viewEq, ← roundEq, ← config_eq] at prepares
        have due := canRepairCommit_eq_some_iff.mpr ⟨preparing, proposed.symm, prepares⟩
        rw [waiting.repairCommit] at due
        contradiction
      · have commits : cluster.config.byzQuorum ≤
            ((network node).replica.repairCommitMsgs.filter
              (·.isRepairCommitFor view round historyHash)).card := by
          apply quorum_of_all fun other => .repairCommit other view round historyHash
          · intro first second same
            cases same
            rfl
          · intro other
            simp [Message.isRepairCommitFor]
          · intro other otherCorrect
            have emitted := settled.committed_everywhere run sole nobodyCaughtUp otherCorrect
            have delivered := settled.arrived other otherCorrect historyHash _
              (by simp [ballots]) emitted node isCorrect
            have kept := store_eq_of_delivered (run.localRun node) rfl delivered
            exact mem_of_store_eq (·.repairCommitMsgs) kept (Finset.mem_insert_self _ _)
        rw [← viewEq, ← roundEq, ← config_eq] at commits
        have due := canApplyRepair_eq_some_iff.mpr ⟨committing, proposed.symm, commits⟩
        rw [waiting.applyRepair] at due
        contradiction
  · exact ended

end Settled

/-! ## Fair runs -/

/-- What has been delivered stays delivered. -/
theorem delivered_of_next {earlier later : Network S} {action : NodeId × Input}
    (steps : next cluster earlier action = some later) {node : NodeId} {msg : Message}
    (delivered : (earlier node).Delivered msg) : (later node).Delivered msg := by
  rcases next_eq_some_iff.mp steps with ⟨_, _, history, served, rfl⟩
  by_cases same : node = action.1
  · subst same
    rw [Function.update_self]
    rcases History.next_eq_some_iff.mp served with ⟨post, effects, _, rfl⟩
    obtain ⟨call, callMem, isInput⟩ := delivered
    exact ⟨call, List.mem_append_left _ callMem, isInput⟩
  · rw [Function.update_of_ne same]
    exact delivered

/-- An infinite run in which REPAIR of `round` meets no obstacle in `view`: the leader is
correct, every correct replica enters the view and does not give it up, what correct replicas
send for it arrives at last, and Byzantine ones do not mislead them. -/
structure GoodView (cluster : Cluster) (stores : NodeId → S)
    (execution : Execution (next cluster) (start cluster stores)) (view round : UInt64) :
    Prop where
  leader : ∃ leader ∈ cluster.correct, cluster.config.leader view = some leader
  engaged : ∀ node ∈ cluster.correct, ∃ time logHash,
    .logMsg node view round logHash ∈ (execution.state time node).messages
  patient : ∀ time, ∀ node ∈ cluster.correct, ∀ later logHash,
    .logMsg node later round logHash ∈ (execution.state time node).messages →
      later.toNat ≤ view.toNat
  fair : ∀ time, ∀ sender ∈ cluster.correct, ∀ msg ∈ (execution.state time sender).messages,
    msg.inAgreement view round = true → ∀ node ∈ cluster.correct, ∃ arrival,
      (execution.state arrival node).Delivered msg
  unmisled : ∀ time, ∀ node ∈ cluster.correct, ∀ msg,
    (execution.state time node).Delivered msg → msg.misleads view round = true →
      ∀ sender ∈ msg.sender, sender ∈ cluster.correct

section Fair

open Filter

variable {execution : Execution (next cluster) (start cluster stores)} {view round : UInt64}

theorem eventually_delivered {time : ℕ} {node : NodeId} {msg : Message}
    (delivered : (execution.state time node).Delivered msg) :
    ∀ᶠ late in atTop, (execution.state late node).Delivered msg :=
  execution.eventually_of_kept (P := fun network => (network node).Delivered msg) delivered
    fun before taken => delivered_of_next taken before

/-- In a good view all messages have arrived from some time on. -/
theorem GoodView.eventually_settled (good : GoodView cluster stores execution view round) :
    ∀ᶠ time in atTop, Settled cluster (execution.state time) view round := by
  have engaged : ∀ᶠ time in atTop, ∀ node ∈ cluster.correct, ∃ logHash,
      .logMsg node view round logHash ∈ (execution.state time node).messages ∧
        ∀ other ∈ cluster.correct,
          (execution.state time other).Delivered (.logMsg node view round logHash) := by
    apply (eventually_all_finset _).mpr
    intro node isCorrect
    obtain ⟨sending, logHash, sent⟩ := good.engaged node isCorrect
    have stays : ∀ᶠ time in atTop,
        .logMsg node view round logHash ∈ (execution.state time node).messages :=
      execution.eventually_of_kept
        (P := fun network => .logMsg node view round logHash ∈ (network node).messages) sent
        fun before taken => messages_subset_of_next taken node before
    have arrives : ∀ᶠ time in atTop, ∀ other ∈ cluster.correct,
        (execution.state time other).Delivered (.logMsg node view round logHash) := by
      apply (eventually_all_finset _).mpr
      intro other otherCorrect
      obtain ⟨arrival, delivered⟩ := good.fair sending node isCorrect _ sent
        (by simp [Message.inAgreement]) other otherCorrect
      exact eventually_delivered delivered
    filter_upwards [stays, arrives] with time emitted delivered
    exact ⟨logHash, emitted, delivered⟩
  -- only finitely many ballots can be cast
  have arrived : ∀ᶠ time in atTop, ∀ sender ∈ cluster.correct, ∀ historyHash,
      ∀ msg ∈ ballots view round sender historyHash,
        msg ∈ (execution.state time sender).messages →
          ∀ node ∈ cluster.correct, (execution.state time node).Delivered msg := by
    apply (eventually_all_finset _).mpr
    intro sender senderCorrect
    apply eventually_all.mpr
    intro historyHash
    apply (eventually_all_finite (List.finite_toSet (ballots view round sender historyHash))).mpr
    intro msg isBallot
    have inAgreement : msg.inAgreement view round = true := by
      simp only [ballots, List.mem_cons, List.not_mem_nil, or_false] at isBallot
      rcases isBallot with rfl | rfl | rfl | rfl <;> simp [Message.inAgreement]
    by_cases everSent : ∃ sending, msg ∈ (execution.state sending sender).messages
    · obtain ⟨sending, sent⟩ := everSent
      have arrives : ∀ᶠ time in atTop, ∀ node ∈ cluster.correct,
          (execution.state time node).Delivered msg := by
        apply (eventually_all_finset _).mpr
        intro node isCorrect
        obtain ⟨arrival, delivered⟩ :=
          good.fair sending sender senderCorrect msg sent inAgreement node isCorrect
        exact eventually_delivered delivered
      filter_upwards [arrives] with time delivered _
      exact delivered
    · apply Eventually.of_forall
      intro time sent
      exact absurd ⟨time, sent⟩ everSent
  filter_upwards [engaged, arrived] with time engaged arrived
  exact ⟨good.leader, engaged, good.patient time, arrived, good.unmisled time⟩

/-- A finite run in which everything has arrived at its end shows a good view. -/
theorem goodView_ofActions {actions : List (NodeId × Input)} {final : Network S}
    (run : execute (next cluster) (start cluster stores) actions = some final)
    (leader : ∃ leader ∈ cluster.correct, cluster.config.leader view = some leader)
    (engaged : ∀ node ∈ cluster.correct, ∃ logHash,
      .logMsg node view round logHash ∈ (final node).messages)
    (patient : ∀ node ∈ cluster.correct, ∀ later logHash,
      .logMsg node later round logHash ∈ (final node).messages → later.toNat ≤ view.toNat)
    (arrived : ∀ sender ∈ cluster.correct, ∀ msg ∈ (final sender).messages,
      msg.inAgreement view round = true → ∀ node ∈ cluster.correct, (final node).Delivered msg)
    (unmisled : ∀ node ∈ cluster.correct, ∀ call ∈ (final node).calls,
      ∀ msg ∈ call.input.delivered, msg.misleads view round = true →
        ∀ sender ∈ msg.sender, sender ∈ cluster.correct) :
    GoodView cluster stores (.ofActions run) view round := by
  have ends := Execution.ofActions_state run (Nat.le_refl actions.length)
  have sentAtLast : ∀ {time node msg},
      msg ∈ ((Execution.ofActions run).state time node).messages → msg ∈ (final node).messages :=
    fun {time node msg} sent => (Execution.onwards_ofActions run time).invariant
      (P := fun network => msg ∈ (network node).messages) sent
      fun _ before taken => messages_subset_of_next taken node before
  have deliveredAtLast : ∀ {time node msg},
      ((Execution.ofActions run).state time node).Delivered msg → (final node).Delivered msg :=
    fun {time node msg} delivered => (Execution.onwards_ofActions run time).invariant
      (P := fun network => (network node).Delivered msg) delivered
      fun _ before taken => delivered_of_next taken before
  constructor
  · exact leader
  · intro node isCorrect
    obtain ⟨logHash, sent⟩ := engaged node isCorrect
    refine ⟨actions.length, logHash, ?_⟩
    rw [ends]
    exact sent
  · intro time node isCorrect later logHash sent
    exact patient node isCorrect later logHash (sentAtLast sent)
  · intro time sender senderCorrect msg sent inAgreement node isCorrect
    refine ⟨actions.length, ?_⟩
    rw [ends]
    exact arrived sender senderCorrect msg (sentAtLast sent) inAgreement node isCorrect
  · intro time node isCorrect msg delivered misleads
    obtain ⟨call, callMem, isInput⟩ := deliveredAtLast delivered
    exact unmisled node isCorrect call callMem msg isInput misleads

/-- REPAIR of a round comes to its end in every good view, for all correct replicas. -/
theorem repair_completes (good : GoodView cluster stores execution view round) :
    ∃ ending, ∀ time ≥ ending, ∀ node ∈ cluster.correct,
      round.toNat < (execution.state time node).replica.round.toNat := by
  apply eventually_atTop.mp
  filter_upwards [good.eventually_settled] with time settled node isCorrect
  exact settled.round_ended (execution.reachable time) isCorrect

end Fair

/-! ## Three of four -/

section Crashed

attribute [local instance] plainHasher

/-- Four replicas, of which the last has crashed. -/
def crashedNodes : Cluster :=
  { fourNodes with
    byzantine := {"r3"}
    byzantine_subset := by decide
    byzantine_le := by decide }

/-- What the other three send in view 0. -/
def completingMessages : List Message :=
  ["r0", "r1", "r2"].map (.logMsg · 0 0 Hash.zero) ++ [.repairHistory "r0" 0 0 3] ++
    ["r0", "r1", "r2"].map (.repairPrepare · 0 0 3) ++
    ["r0", "r1", "r2"].map (.repairCommit · 0 0 3) ++
    ["r0", "r1", "r2"].map (.repairDone · 0 0 3)

/-- They enter REPAIR and hear each other out, their own messages included. -/
def completingActions : List (NodeId × Input) :=
  (.conflictProof 0 0 :: completingMessages).flatMap fun msg =>
    ["r0", "r1", "r2"].map (deliver msg)

def completedNetwork : Network MemKvStore :=
  (execute (next crashedNodes) (start crashedNodes fun _ => MemKvStore.new)
    completingActions).get (by decide +kernel)

theorem execute_completingActions :
    execute (next crashedNodes) (start crashedNodes fun _ => MemKvStore.new) completingActions =
      some completedNetwork :=
  (Option.some_get _).symm

theorem repair_completes_crashed :
    ∃ ending, ∀ time ≥ ending, ∀ node ∈ crashedNodes.correct, (0 : UInt64).toNat <
      ((Execution.ofActions execute_completingActions).state time node).replica.round.toNat := by
  have logs : ∀ node ∈ crashedNodes.correct, ∀ msg ∈ (completedNetwork node).messages,
      msg.isLogMsg = true → msg.isLogMsgAt 0 0 = true := by
    decide +kernel
  have sent : ∀ node ∈ crashedNodes.correct,
      .logMsg node 0 0 Hash.zero ∈ (completedNetwork node).messages := by
    decide +kernel
  have good : GoodView crashedNodes (fun _ => MemKvStore.new)
      (.ofActions execute_completingActions) 0 0 := by
    apply goodView_ofActions
    · exact ⟨"r0", by decide, rfl⟩
    · intro node isCorrect
      exact ⟨_, sent node isCorrect⟩
    · intro node isCorrect later logHash isSent
      have first := logs node isCorrect _ isSent rfl
      simp only [Message.isLogMsgAt, Bool.and_eq_true, beq_iff_eq] at first
      rw [first.1]
    · decide +kernel
    · decide +kernel
  exact repair_completes good

end Crashed

end Network

end Raspen
