import Raspen.Aspen.Ballots
import Raspen.Aspen.Invariants
import Raspen.Choreo.Open
import Raspen.Consensus.Rounds
import Raspen.Consensus.Evidence
import Raspen.Network.Core

/-!
# The REPAIR of the code runs in the specification

The specification delivers every message at once, to everyone, and has no Byzantine
leaders.  In an open environment, where messages are late, faulty nodes send what they
like and timeouts fire, it has a run that goes with every run of the cluster: correct
replicas are in the same phase, view and round of REPAIR, vote for the same history, and
have cast the same ballots.
-/

namespace Raspen

open Raspen.Transition

variable {S : Type}

namespace Cluster

variable (cluster : Cluster)

/-- The constants of the specification for a cluster. -/
def constants : Aspen.Constants where
  maxByz := cluster.config.f
  maxDiv := cluster.config.p
  nodesOrdered := cluster.config.nodesOrdered
  faultyNodes := cluster.byzantine

/-- What the environment may send: anonymous messages and those of faulty nodes. -/
def admits (msg : Aspen.Message) : Bool :=
  msg.sender.all fun node => decide (node ∈ cluster.byzantine)

/-- The specification in an open environment. -/
def specification : Next Aspen.GlobalContext
    (Choreo.OpenAction NodeId Aspen.LocalState Aspen.Message Aspen.Event Unit) :=
  Choreo.openStep cluster.constants.nodes (Aspen.mainListener cluster.constants)
    Aspen.applyCustomEffect cluster.admits

theorem byzQuorum_constants :
    cluster.constants.byzQuorum = (cluster.config.byzQuorum : Int) := by
  have card : cluster.constants.nodes.card = cluster.config.n := cluster.card_members
  have quorum := cluster.byzQuorum_eq
  have resilient := cluster.resilient
  rw [Aspen.Constants.byzQuorum, Aspen.Constants.nReplicas, card, quorum]
  change (cluster.config.n : Int) - cluster.config.f = _
  omega

theorem isLeader_constants {replica : Replica S} (config : replica.config = cluster.config)
    (leads : replica.isLeader = true) :
    cluster.constants.isLeader replica.nodeId replica.view.toNat = true := by
  have count : cluster.constants.nReplicas = (cluster.config.nodesOrdered.length : Int) := by
    rw [Aspen.Constants.nReplicas, Int.natCast_inj]
    exact cluster.card_members.trans cluster.length_eq.symm
  rw [Replica.isLeader_iff, config, Config.leader] at leads
  rw [Aspen.Constants.isLeader, count, ← Int.natCast_mod, Int.toNat_natCast, beq_iff_eq]
  exact leads

end Cluster

/-! ## What the two levels share -/

/-- The REPAIR fields of a replica, read at the level of the specification. -/
structure RepairMatches (replica : Replica S) (st : Aspen.LocalState) : Prop where
  round : st.round = replica.round.toNat
  view : st.view = replica.view.toNat
  inRepair : st.inRepair = replica.inRepair
  proposed : st.proposedHistoryHash = replica.proposedHistoryHash.toNat
  phase : st.phase = replica.phase ∨
    (st.phase.isRepair = false ∧ replica.phase.isRepair = false)

theorem RepairMatches.phase_eq {replica : Replica S} {st : Aspen.LocalState}
    (same : RepairMatches replica st) (inside : replica.phase.isRepair = true) :
    st.phase = replica.phase := by
  rcases same.phase with equal | ⟨_, outside⟩
  · exact equal
  · rw [outside] at inside
    contradiction

theorem RepairMatches.of_quietStep {replica next : Replica S} {st : Aspen.LocalState}
    (same : RepairMatches replica st) (quiet : QuietStep replica next) :
    RepairMatches next st where
  round := by rw [quiet.round, same.round]
  view := by rw [quiet.view, same.view]
  inRepair := by rw [quiet.inRepair, same.inRepair]
  proposed := by rw [quiet.proposed, same.proposed]
  phase := by
    rcases quiet.log with ⟨phase, _⟩ | ⟨outside, before⟩
    · rw [phase]
      exact same.phase
    · right
      rcases same.phase with equal | ⟨abstractOutside, _⟩
      · rw [equal]
        exact ⟨before, outside⟩
      · exact ⟨abstractOutside, outside⟩

/-- The messages sent include one with the ballot. -/
def Cast (sent : List Message) (ballot : Ballot) : Prop :=
  ∃ msg ∈ sent, msg.ballot = some ballot

/-- The environment goes with the replicas and with what they have sent. -/
structure Shadows (cluster : Cluster) (replicas : NodeId → Replica S)
    (sent : NodeId → List Message) (env : Aspen.GlobalContext) : Prop where
  processId : ∀ node, (env.system node).processId = node
  states : ∀ node ∈ cluster.correct, RepairMatches (replicas node) (env.system node)
  ballots : ∀ ballot : Ballot, ballot.sender ∈ cluster.correct → ∀ receiver,
    Aspen.Holds (env.messages receiver) ballot ↔ Cast (sent ballot.sender) ballot

/-- A ballot of a member, and of a correct one only if that has cast it. -/
def Vouched (cluster : Cluster) (sent : NodeId → List Message) (ballot : Ballot) : Prop :=
  ballot.sender ∈ cluster.members ∧
    (ballot.sender ∈ cluster.correct → Cast (sent ballot.sender) ballot)

/-- The transition of the specification casts the ballots that the effects of the code do. -/
def SameBallots (effects : List Effect) (abstract : List Aspen.Effect) : Prop :=
  ∀ receiver ballot,
    (∃ effect ∈ abstract, ∃ msg, effect.Reaches receiver msg ∧ msg.ballot = some ballot) ↔
      Cast (effects.map Effect.message) ballot

variable {cluster : Cluster} {replicas : NodeId → Replica S} {sent : NodeId → List Message}
  {env : Aspen.GlobalContext}

namespace Shadows

/-- Messages without ballots of correct replicas may appear. -/
theorem inject (shadows : Shadows cluster replicas sent env) {msg : Aspen.Message}
    (foreign : ∀ ballot, msg.ballot = some ballot → ballot.sender ∉ cluster.correct) :
    Shadows cluster replicas sent
      { env with messages := fun node => insert msg (env.messages node) } where
  processId := shadows.processId
  states := shadows.states
  ballots ballot correct receiver := by
    rw [← shadows.ballots ballot correct receiver]
    constructor
    · rintro ⟨held, heldMem, carries⟩
      rcases Finset.mem_insert.mp heldMem with rfl | old
      · exact absurd correct (foreign ballot carries)
      · exact ⟨held, old, carries⟩
    · rintro ⟨held, heldMem, carries⟩
      exact ⟨held, Finset.mem_insert_of_mem heldMem, carries⟩

/-- Events do not matter. -/
theorem fire (shadows : Shadows cluster replicas sent env)
    (events : NodeId → Finset Aspen.Event) :
    Shadows cluster replicas sent { env with events := events } :=
  { shadows with }

variable {v : NodeId} {next : Replica S} {effects : List Effect}

/-- What the code does at `v` without REPAIR noticing. -/
theorem quiet (shadows : Shadows cluster replicas sent env)
    (step : QuietStep (replicas v) next) (silent : Quiet effects) :
    Shadows cluster (Function.update replicas v next)
      (Function.update sent v (sent v ++ effects.map Effect.message)) env where
  processId := shadows.processId
  states node correct := by
    by_cases same : node = v
    · subst same
      rw [Function.update_self]
      exact (shadows.states node correct).of_quietStep step
    · rw [Function.update_of_ne same]
      exact shadows.states node correct
  ballots ballot correct receiver := by
    rw [shadows.ballots ballot correct receiver]
    by_cases same : ballot.sender = v
    · rw [same, Function.update_self]
      constructor
      · rintro ⟨msg, msgMem, carries⟩
        exact ⟨msg, List.mem_append_left _ msgMem, carries⟩
      · rintro ⟨msg, msgMem, carries⟩
        rcases List.mem_append.mp msgMem with old | new
        · exact ⟨msg, old, carries⟩
        · obtain ⟨effect, effectMem, rfl⟩ := List.mem_map.mp new
          rw [Message.ballot_of_quiet (silent effect effectMem)] at carries
          contradiction
    · rw [Function.update_of_ne same]

/-- The code moves at `v`, and the specification takes a transition there. -/
theorem take (shadows : Shadows cluster replicas sent env) {transition : Aspen.Transition}
    (processId : transition.postState.processId = v)
    (states : RepairMatches next transition.postState)
    (same : SameBallots effects transition.effects)
    (own : ∀ ballot, Cast (effects.map Effect.message) ballot → ballot.sender = v) :
    Shadows cluster (Function.update replicas v next)
      (Function.update sent v (sent v ++ effects.map Effect.message))
      (Choreo.applyEffect Aspen.applyCustomEffect env v transition) where
  processId := by
    apply Choreo.forall_system_applyEffect Aspen.applyCustomEffect_eq
      (P := fun node st => st.processId = node)
    · exact processId
    · exact fun node _ => shadows.processId node
  states node correct := by
    apply Choreo.forall_system_applyEffect Aspen.applyCustomEffect_eq
      (P := fun node st => node ∈ cluster.correct →
        RepairMatches (Function.update replicas v next node) st) _ _ node correct
    · intro _
      rw [Function.update_self]
      exact states
    · intro other different isCorrect
      rw [Function.update_of_ne different]
      exact shadows.states other isCorrect
  ballots ballot correct receiver := by
    have held : Aspen.Holds ((Choreo.applyEffect Aspen.applyCustomEffect env v
        transition).messages receiver) ballot ↔
        Aspen.Holds (env.messages receiver) ballot ∨ Cast (effects.map Effect.message) ballot := by
      rw [← same receiver ballot]
      simp only [Aspen.Holds, Choreo.mem_messages_applyEffect_iff Aspen.applyCustomEffect_eq,
        or_and_right, exists_or]
      apply or_congr_right
      constructor
      · rintro ⟨msg, ⟨effect, effectMem, reaches⟩, carries⟩
        exact ⟨effect, effectMem, msg, reaches, carries⟩
      · rintro ⟨effect, effectMem, msg, reaches, carries⟩
        exact ⟨msg, ⟨effect, effectMem, reaches⟩, carries⟩
    rw [held, shadows.ballots ballot correct receiver]
    by_cases isSelf : ballot.sender = v
    · rw [isSelf, Function.update_self]
      simp only [Cast, List.mem_append, or_and_right, exists_or]
    · rw [Function.update_of_ne isSelf]
      exact or_iff_left fun cast => isSelf (own ballot cast)

/-- Vouched ballots can be put into every mailbox. -/
theorem supply {start : Aspen.GlobalContext} (run : Reachable cluster.specification start env)
    (shadows : Shadows cluster replicas sent env) {evidence : Finset Ballot}
    (vouched : ∀ ballot ∈ evidence, Vouched cluster sent ballot) :
    ∃ later, Reachable cluster.specification start later ∧
      Shadows cluster replicas sent later ∧
      ∀ ballot ∈ evidence, ∀ receiver, Aspen.Holds (later.messages receiver) ballot := by
  induction evidence using Finset.induction_on with
  | empty => exact ⟨env, run, shadows, by simp⟩
  | insert ballot others _ ih =>
      obtain ⟨middle, reached, shadows, supplied⟩ :=
        ih fun other otherMem => vouched other (Finset.mem_insert_of_mem otherMem)
      obtain ⟨member, honest⟩ := vouched ballot (Finset.mem_insert_self _ _)
      by_cases correct : ballot.sender ∈ cluster.correct
      · refine ⟨middle, reached, shadows, ?_⟩
        intro other otherMem receiver
        rcases Finset.mem_insert.mp otherMem with rfl | old
        · exact (shadows.ballots other correct receiver).mpr (honest correct)
        · exact supplied other old receiver
      · -- a faulty member sends it now
        have faulty : ballot.sender ∈ cluster.byzantine := by
          by_contra notFaulty
          exact correct (Finset.mem_sdiff.mpr ⟨member, notFaulty⟩)
        have admitted : cluster.admits (Aspen.messageOf ballot) = true := by
          rw [Cluster.admits, Aspen.Message.sender_of_ballot (Aspen.ballot_messageOf ballot)]
          exact decide_eq_true faulty
        have injected : cluster.specification middle (.inject (Aspen.messageOf ballot)) =
            some { middle with
              messages := fun node => insert (Aspen.messageOf ballot) (middle.messages node) } :=
          if_pos admitted
        refine ⟨_, reached.tail injected, shadows.inject ?_, ?_⟩
        · intro other carries
          rw [Aspen.ballot_messageOf] at carries
          cases carries
          exact correct
        · intro other otherMem receiver
          rcases Finset.mem_insert.mp otherMem with rfl | old
          · exact ⟨_, Finset.mem_insert_self _ _, Aspen.ballot_messageOf other⟩
          · obtain ⟨msg, msgMem, carries⟩ := supplied other old receiver
            exact ⟨msg, Finset.mem_insert_of_mem msgMem, carries⟩

/-- The specification answers a move of the code with a transition that is offered on the
evidence the code has acted on. -/
theorem answer {start : Aspen.GlobalContext} (run : Reachable cluster.specification start env)
    (shadows : Shadows cluster replicas sent env) (correct : v ∈ cluster.correct)
    {evidence : Finset Ballot} (vouched : ∀ ballot ∈ evidence, Vouched cluster sent ballot)
    (own : ∀ ballot, Cast (effects.map Effect.message) ballot → ballot.sender = v)
    (respond : ∀ ctx : Aspen.LocalContext, RepairMatches (replicas v) ctx.state →
      ctx.state.processId = v → (∀ ballot, Aspen.Holds ctx.messages ballot ↔ ballot ∈ evidence) →
      ∃ transition ∈ Aspen.mainListener cluster.constants ctx,
        transition.postState.processId = v ∧ RepairMatches next transition.postState ∧
          SameBallots effects transition.effects) :
    ∃ later, Reachable cluster.specification start later ∧
      Shadows cluster (Function.update replicas v next)
        (Function.update sent v (sent v ++ effects.map Effect.message)) later := by
  obtain ⟨middle, reached, shadows, supplied⟩ := supply run shadows vouched
  obtain ⟨transition, transitionMem, processId, states, same⟩ := respond
    ((Choreo.convertContext middle v).seeing (Aspen.among evidence (middle.messages v)))
    (shadows.states v correct) (shadows.processId v)
    (fun ballot => Aspen.holds_among_iff fun other otherMem => supplied other otherMem v)
  have member : v ∈ cluster.constants.nodes := (Finset.mem_sdiff.mp correct).1
  exact ⟨_, Choreo.openRun_take reached member (Finset.filter_subset _ _) transitionMem,
    shadows.take processId states same own⟩

end Shadows

/-! ## The ballots of a move -/

theorem sameBallots_nil : SameBallots [] [] := by
  intro receiver ballot
  simp [Cast]

/-- Broadcasting messages with one ballot keeps the ballots the same. -/
theorem SameBallots.cons {effects : List Effect} {abstract : List Aspen.Effect}
    (same : SameBallots effects abstract) {msg : Message} {abstractMsg : Aspen.Message}
    (equal : abstractMsg.ballot = msg.ballot) :
    SameBallots (.broadcast msg :: effects) (.broadcast abstractMsg :: abstract) := by
  intro receiver ballot
  have rest := same receiver ballot
  simp only [Cast, List.map_cons, List.exists_mem_cons_iff] at rest ⊢
  rw [rest]
  apply or_congr_left
  constructor
  · rintro ⟨_, rfl, carries⟩
    exact equal.symm.trans carries
  · intro carries
    exact ⟨abstractMsg, rfl, equal.trans carries⟩

/-- Effects without ballots may come first. -/
theorem SameBallots.quiet_append {proof effects : List Effect} {abstract : List Aspen.Effect}
    (same : SameBallots effects abstract) (quiet : Quiet proof) :
    SameBallots (proof ++ effects) abstract := by
  intro receiver ballot
  rw [same receiver ballot, List.map_append]
  constructor
  · rintro ⟨msg, msgMem, carries⟩
    exact ⟨msg, List.mem_append_right _ msgMem, carries⟩
  · rintro ⟨msg, msgMem, carries⟩
    rcases List.mem_append.mp msgMem with proofMem | inEffects
    · obtain ⟨effect, effectMem, rfl⟩ := List.mem_map.mp proofMem
      rw [Message.ballot_of_quiet (quiet effect effectMem)] at carries
      contradiction
    · exact ⟨msg, inEffects, carries⟩

/-- A REPAIR move casts ballots of its own replica only. -/
theorem own_of_repairMove [KvStoreOps S] {replica next : Replica S} {effects : List Effect}
    (move : RepairMove replica next effects) {ballot : Ballot}
    (cast : Cast (effects.map Effect.message) ballot) : ballot.sender = replica.nodeId := by
  obtain ⟨msg, msgMem, carries⟩ := cast
  obtain ⟨effect, effectMem, rfl⟩ := List.mem_map.mp msgMem
  have sends := Message.sender_of_ballot carries
  have loud : effect.message.isRepair = true := by
    by_contra quiet
    rw [Message.ballot_of_quiet (Bool.not_eq_true _ ▸ quiet)] at carries
    contradiction
  have isSelf : effect.message.sender = some replica.nodeId := by
    cases move with
    | quiet _ silent =>
        rw [silent effect effectMem] at loud
        contradiction
    | enter _ silent =>
        rcases List.mem_append.mp effectMem with proofMem | last
        · rw [silent effect proofMem] at loud
          contradiction
        · rw [List.mem_singleton.mp last]
          rfl
    | apply _ _ _ =>
        simp only [List.mem_cons, List.not_mem_nil, or_false] at effectMem
        rcases effectMem with rfl | rfl <;> rfl
    | catchup _ _ => simp at effectMem
    | propose _ | vote _ _ | lock _ | changeView _ _ =>
        rw [List.mem_singleton.mp effectMem]
        rfl
  exact Option.some.inj (sends.symm.trans isSelf)

/-! ## The listeners answer the guards -/

/-- The ballots of a set of messages. -/
def evidenceOf (msgs : Finset Message) : Finset Ballot :=
  Choreo.filterMap msgs Message.ballot

/-- The senders of the messages of a pattern are those of their ballots. -/
theorem mem_evidenceOf_iff {pattern : Message → Bool} {msgs : Finset Message}
    (ballotOf : NodeId → Ballot)
    (names : ∀ msg, pattern msg = true → ∀ sender,
      msg.ballot = some (ballotOf sender) ↔ msg.sender = some sender) {sender : NodeId} :
    ballotOf sender ∈ evidenceOf (msgs.filter (pattern ·)) ↔ sender ∈ senders pattern msgs := by
  rw [evidenceOf, Choreo.mem_filterMap_iff, mem_senders_iff]
  simp only [Finset.mem_filter, and_assoc]
  apply exists_congr
  intro msg
  apply and_congr_right
  intro _
  apply and_congr_right
  intro matched
  exact names msg matched sender

theorem mem_evidenceOf_of_mem {msgs : Finset Message} {msg : Message} {ballot : Ballot}
    (msgMem : msg ∈ msgs) (carries : msg.ballot = some ballot) : ballot ∈ evidenceOf msgs :=
  Choreo.mem_filterMap_iff.mpr ⟨msg, msgMem, carries⟩

section Answers

variable {replica : Replica S} {ctx : Aspen.LocalContext} {historyHash : UInt64}

/-- The leader of the specification hears the LOGs that the one of the code has counted. -/
theorem propose_offered (config : replica.config = cluster.config)
    (same : RepairMatches replica ctx.state) (self : ctx.state.processId = replica.nodeId)
    (guard : canBroadcastHistory replica = some historyHash)
    (fits : (senders (Message.isLogMsgAt replica.view replica.round) replica.logMsgs).card <
      2 ^ 64)
    (holds : ∀ ballot, Aspen.Holds ctx.messages ballot ↔
      ballot ∈ evidenceOf (replica.logMsgs.filter
        (·.isLogMsgAt replica.view replica.round))) :
    Aspen.handleBroadcastHistory ctx historyHash.toNat ∈
      Aspen.mainListener cluster.constants ctx := by
  obtain ⟨collecting, leads, quorum, rfl⟩ := canBroadcastHistory_eq_some_iff.mp guard
  have phase : ctx.state.phase = .collectingLogs :=
    (same.phase_eq (by rw [collecting]; rfl)).trans collecting
  rw [logSenders_eq_senders] at quorum ⊢
  have counted : Aspen.logMsgSenders ctx.messages replica.view.toNat replica.round.toNat =
      senders (Message.isLogMsgAt replica.view replica.round) replica.logMsgs := by
    ext sender
    rw [Aspen.mem_logMsgSenders_iff, holds,
      mem_evidenceOf_iff fun sender => .log sender replica.view.toNat replica.round.toNat]
    intro msg matched sender
    cases msg <;> simp_all [Message.isLogMsgAt, Message.ballot, Message.sender]
  have leader := cluster.isLeader_constants config leads
  have exactCount : (UInt64.ofNat (senders (Message.isLogMsgAt replica.view replica.round)
      replica.logMsgs).card).toNat = (senders (Message.isLogMsgAt replica.view replica.round)
      replica.logMsgs).card := by
    rw [UInt64.toNat_ofNat', Nat.mod_eq_of_lt fits]
  apply Aspen.broadcastHistory_mem_mainListener
  rw [config] at quorum
  rw [exactCount]
  simp [Aspen.listenBroadcastHistory, phase, self, same.view, same.round, leader, counted,
    cluster.byzQuorum_constants, quorum]

/-- The specification votes for the history that the code votes for. -/
theorem vote_offered (same : RepairMatches replica ctx.state) {sender : NodeId}
    (relevant : replica.phase = .collectingLogs ∨ replica.phase = .preparePhase)
    (holds : ∀ ballot, Aspen.Holds ctx.messages ballot ↔
      ballot ∈ evidenceOf {.repairHistory sender replica.view replica.round historyHash}) :
    Aspen.handleRepairPrepare ctx historyHash.toNat ∈
      Aspen.mainListener cluster.constants ctx := by
  have phase : ctx.state.phase = .collectingLogs ∨ ctx.state.phase = .preparePhase := by
    rcases relevant with inside | inside
    · exact .inl ((same.phase_eq (by rw [inside]; rfl)).trans inside)
    · exact .inr ((same.phase_eq (by rw [inside]; rfl)).trans inside)
  have held : Aspen.Holds ctx.messages
      (.history sender replica.view.toNat replica.round.toNat historyHash.toNat) :=
    (holds _).mpr (mem_evidenceOf_of_mem (Finset.mem_singleton_self _) rfl)
  -- every history in sight is this one
  have only : ∀ other view round (hash : Int),
      .repairHistory other view round hash ∈ ctx.messages → hash = historyHash.toNat := by
    intro other view round hash stored
    have ballotMem := (holds _).mp ⟨_, stored, rfl⟩
    obtain ⟨msg, msgMem, carries⟩ := Choreo.mem_filterMap_iff.mp ballotMem
    rw [Finset.mem_singleton.mp msgMem] at carries
    cases carries
    rfl
  have proposed := Aspen.hasRepairHistory_of_holds held
  obtain ⟨other, chosen⟩ := Aspen.exists_history_of_getHistoryHash proposed fun _ hash stored =>
    (only _ _ _ _ stored).symm ▸ Int.natCast_nonneg historyHash.toNat
  have chosen_eq := only _ _ _ _ chosen
  apply Aspen.repairPrepare_mem_mainListener
  rw [Aspen.listenRepairPrepare, same.view, same.round, if_pos ⟨phase, proposed⟩, chosen_eq]
  exact Finset.mem_singleton_self _

/-- Enough PREPAREs for the code are enough for the specification. -/
theorem lock_offered (config : replica.config = cluster.config)
    (same : RepairMatches replica ctx.state) (guard : canRepairCommit replica = some historyHash)
    (holds : ∀ ballot, Aspen.Holds ctx.messages ballot ↔
      ballot ∈ evidenceOf (replica.repairPrepareMsgs.filter
        (·.isRepairPrepareFor replica.view replica.round historyHash))) :
    Aspen.handleRepairCommit ctx historyHash.toNat ∈
      Aspen.mainListener cluster.constants ctx := by
  obtain ⟨preparing, rfl, quorum⟩ := canRepairCommit_eq_some_iff.mp guard
  have phase : ctx.state.phase = .preparePhase :=
    (same.phase_eq (by rw [preparing]; rfl)).trans preparing
  have counted : Aspen.repairPrepareSenders ctx.messages replica.view.toNat replica.round.toNat
      replica.proposedHistoryHash.toNat = senders (Message.isRepairPrepareFor replica.view
        replica.round replica.proposedHistoryHash) replica.repairPrepareMsgs := by
    ext sender
    rw [Aspen.mem_repairPrepareSenders_iff, holds,
      mem_evidenceOf_iff fun sender => .prepare sender replica.view.toNat replica.round.toNat
        replica.proposedHistoryHash.toNat]
    intro msg matched sender
    obtain ⟨voter, rfl⟩ := Message.isRepairPrepareFor_iff.mp matched
    simp [Message.ballot, Message.sender]
  apply Aspen.repairCommit_mem_mainListener
  rw [← card_prepareSenders, config] at quorum
  simp [Aspen.listenRepairCommit, phase, same.view, same.round, same.proposed, counted,
    cluster.byzQuorum_constants, quorum]

/-- Enough COMMITs for the code are enough for the specification. -/
theorem apply_offered (config : replica.config = cluster.config)
    (same : RepairMatches replica ctx.state) (guard : canApplyRepair replica = some historyHash)
    (holds : ∀ ballot, Aspen.Holds ctx.messages ballot ↔
      ballot ∈ evidenceOf (replica.repairCommitMsgs.filter
        (·.isRepairCommitFor replica.view replica.round historyHash))) :
    Aspen.handleApplyRepair ctx historyHash.toNat ∈
      Aspen.mainListener cluster.constants ctx := by
  obtain ⟨committing, rfl, quorum⟩ := canApplyRepair_eq_some_iff.mp guard
  have phase : ctx.state.phase = .commitPhase :=
    (same.phase_eq (by rw [committing]; rfl)).trans committing
  have counted : Aspen.repairCommitSenders ctx.messages replica.view.toNat replica.round.toNat
      replica.proposedHistoryHash.toNat = senders (Message.isRepairCommitFor replica.view
        replica.round replica.proposedHistoryHash) replica.repairCommitMsgs := by
    ext sender
    rw [Aspen.mem_repairCommitSenders_iff, holds,
      mem_evidenceOf_iff fun sender => .commit sender replica.view.toNat replica.round.toNat
        replica.proposedHistoryHash.toNat]
    intro msg matched sender
    obtain ⟨voter, rfl⟩ := Message.isRepairCommitFor_iff.mp matched
    simp [Message.ballot, Message.sender]
  apply Aspen.applyRepair_mem_mainListener
  rw [← card_commitSenders, config] at quorum
  simp [Aspen.listenApplyRepair, phase, same.view, same.round, same.proposed, counted,
    cluster.byzQuorum_constants, quorum]

/-- Distinct senders of DONEs for the code are enough for the specification. -/
theorem catchup_offered (same : RepairMatches replica ctx.state) {oldRound : UInt64}
    (guard : canRepairDoneCatchup replica = some oldRound)
    (distinct : cluster.config.f + 1 ≤
      (senders (Message.isRepairDoneAt replica.view replica.round) replica.repairDoneMsgs).card)
    (holds : ∀ ballot, Aspen.Holds ctx.messages ballot ↔
      ballot ∈ evidenceOf (replica.repairDoneMsgs.filter
          (·.isRepairDoneAt replica.view replica.round) ∪
        replica.repairHistoryMsgs.filter (·.isRepairHistoryAt replica.view replica.round))) :
    Aspen.handleRepairDoneCatchup ctx ctx.state.round ∈
      Aspen.mainListener cluster.constants ctx := by
  obtain ⟨inside, _, ⟨proposal, proposalMem⟩, rfl⟩ := canRepairDoneCatchup_eq_some_iff.mp guard
  have isRepair : replica.phase.isRepair = true := by
    rcases inside with phase | phase | phase <;> rw [phase] <;> rfl
  have phase := same.phase_eq isRepair
  have proposed : Aspen.hasRepairHistory ctx.messages replica.view.toNat replica.round.toNat =
      true := by
    obtain ⟨sender, hist, rfl⟩ :=
      Message.isRepairHistoryAt_iff.mp (Finset.mem_filter.mp proposalMem).2
    apply Aspen.hasRepairHistory_of_holds
    exact (holds _).mpr (mem_evidenceOf_of_mem (Finset.mem_union_right _ proposalMem) rfl)
  have counted : senders (Message.isRepairDoneAt replica.view replica.round)
      replica.repairDoneMsgs ⊆
      Aspen.repairDoneSenders ctx.messages replica.view.toNat replica.round.toNat := by
    intro sender senderMem
    obtain ⟨msg, stored, matched, sends⟩ := mem_senders_iff.mp senderMem
    cases msg with
    | repairDone voter view round hist =>
        cases sends
        have matched' := matched
        simp only [Message.isRepairDoneAt, Bool.and_eq_true, beq_iff_eq] at matched'
        obtain ⟨rfl, rfl⟩ := matched'
        apply Aspen.mem_repairDoneSenders_of_holds
        exact (holds _).mpr (mem_evidenceOf_of_mem
          (Finset.mem_union_left _ (Finset.mem_filter.mpr ⟨stored, matched⟩)) rfl)
    | _ => contradiction
  apply Aspen.repairDoneCatchup_mem_mainListener
  have enough : cluster.constants.fPlus1 ≤ ((Aspen.repairDoneSenders ctx.messages
      replica.view.toNat replica.round.toNat).card : Int) := by
    have fits := distinct.trans (Finset.card_le_card counted)
    change (cluster.config.f : Int) + 1 ≤ _
    omega
  rw [← phase] at inside
  rw [Aspen.listenRepairDoneCatchup, if_pos inside, same.view, same.round,
    if_pos ⟨enough, proposed⟩]
  exact Finset.mem_singleton_self _

end Answers

/-! ## One move -/

theorem vouched_evidenceOf {replica : Replica S}
    (stored : ∀ msg, replica.Stores msg → ∀ ballot, msg.ballot = some ballot →
      Vouched cluster sent ballot)
    {msgs : Finset Message} (sub : ∀ msg ∈ msgs, replica.Stores msg) :
    ∀ ballot ∈ evidenceOf msgs, Vouched cluster sent ballot := by
  intro ballot ballotMem
  obtain ⟨msg, msgMem, carries⟩ := Choreo.mem_filterMap_iff.mp ballotMem
  exact stored msg (sub msg msgMem) ballot carries

/-- The senders of vouched LOGs are members, so their number fits. -/
theorem card_senders_lt {replica : Replica S} (small : cluster.config.n < 2 ^ 64)
    (vouched : ∀ ballot ∈ evidenceOf (replica.logMsgs.filter
      (·.isLogMsgAt replica.view replica.round)), Vouched cluster sent ballot) :
    (senders (Message.isLogMsgAt replica.view replica.round) replica.logMsgs).card < 2 ^ 64 := by
  have members : senders (Message.isLogMsgAt replica.view replica.round) replica.logMsgs ⊆
      cluster.members := by
    intro sender senderMem
    obtain ⟨msg, msgMem, matched, sends⟩ := mem_senders_iff.mp senderMem
    cases msg with
    | logMsg voter view round logHash =>
        cases sends
        exact (vouched _ (mem_evidenceOf_of_mem (Finset.mem_filter.mpr ⟨msgMem, matched⟩) rfl)).1
    | _ => contradiction
  apply lt_of_le_of_lt _ small
  rw [← cluster.card_members]
  exact Finset.card_le_card members

theorem toNat_add_one {a next : UInt64} (advanced : addU64 a 1 = some next) :
    (next.toNat : Int) = a.toNat + 1 := by
  rw [toNat_of_addU64 advanced]
  rfl

namespace Shadows

variable [KvStoreOps S] {v : NodeId} {next : Replica S} {effects : List Effect}

/-- The specification enters REPAIR on a proof from outside. -/
theorem enter {start : Aspen.GlobalContext} (run : Reachable cluster.specification start env)
    (shadows : Shadows cluster replicas sent env) (correct : v ∈ cluster.correct)
    (nodeId : (replicas v).nodeId = v) (outside : (replicas v).inRepair = false)
    {proof : List Effect} (silent : Quiet proof)
    (own : ∀ ballot, Cast ((proof ++ [logMsgEffect (replicas v) (replicas v).view]).map
      Effect.message) ballot → ballot.sender = v) :
    ∃ later, Reachable cluster.specification start later ∧
      Shadows cluster
        (Function.update replicas v
          { replicas v with phase := .collectingLogs, inRepair := true })
        (Function.update sent v (sent v ++
          (proof ++ [logMsgEffect (replicas v) (replicas v).view]).map Effect.message)) later := by
  have same := shadows.states v correct
  have foreign : ∀ ballot, Aspen.Message.ballot (.conflictProof 0 0) = some ballot →
      ballot.sender ∉ cluster.correct := by
    intro ballot carries
    contradiction
  have injected : cluster.specification env (.inject (.conflictProof 0 0)) =
      some { env with
        messages := fun node => insert (.conflictProof 0 0) (env.messages node) } := rfl
  have heard : (env.system v).round ∈ Aspen.listenEnterRepair
      ((Choreo.convertContext env v).seeing {.conflictProof 0 0}) := by
    have stays : (env.system v).inRepair = false := same.inRepair.trans outside
    simp [Aspen.listenEnterRepair, Choreo.LocalContext.seeing, Choreo.convertContext, stays,
      Aspen.Message.isProof]
  have entered := Choreo.openRun_take (run.tail injected) (Finset.mem_sdiff.mp correct).1
    (Finset.singleton_subset_iff.mpr (Finset.mem_insert_self _ _))
    (Aspen.enterRepair_mem_mainListener heard)
  refine ⟨_, entered, (shadows.inject foreign).take (shadows.processId v) ?_ ?_ own⟩
  · exact { same with inRepair := rfl, phase := .inl rfl }
  · apply SameBallots.quiet_append _ silent
    apply sameBallots_nil.cons
    change some (Ballot.log (env.system v).processId (env.system v).view (env.system v).round) =
      some (.log (replicas v).nodeId _ _)
    rw [shadows.processId, nodeId, same.view, same.round]

/-- The specification changes the view when its timeout fires. -/
theorem changeView {start : Aspen.GlobalContext}
    (run : Reachable cluster.specification start env)
    (shadows : Shadows cluster replicas sent env) (correct : v ∈ cluster.correct)
    (nodeId : (replicas v).nodeId = v) (collecting : (replicas v).phase = .collectingLogs)
    {view : UInt64} (advanced : addU64 (replicas v).view 1 = some view)
    (own : ∀ ballot, Cast ([logMsgEffect (replicas v) view].map Effect.message) ballot →
      ballot.sender = v) :
    ∃ later, Reachable cluster.specification start later ∧
      Shadows cluster (Function.update replicas v { replicas v with view := view })
        (Function.update sent v (sent v ++
          [logMsgEffect (replicas v) view].map Effect.message)) later := by
  have same := shadows.states v correct
  have newView : (env.system v).view + 1 = view.toNat := by
    rw [toNat_add_one advanced, same.view]
  let events := Function.update env.events v (insert .repairViewTimeout (env.events v))
  have fired : cluster.specification env (.fire v .repairViewTimeout) =
      some { env with events := events } := rfl
  have phase : (env.system v).phase = .collectingLogs :=
    (same.phase_eq (by rw [collecting]; rfl)).trans collecting
  have heard : (env.system v).view + 1 ∈ Aspen.listenViewChange
      ((Choreo.convertContext { env with events := events } v).seeing (env.messages v)) := by
    simp [Aspen.listenViewChange, Choreo.LocalContext.seeing, Choreo.convertContext, phase, events]
  have changed := Choreo.openRun_take (run.tail fired) (Finset.mem_sdiff.mp correct).1
    (Finset.Subset.refl _) (Aspen.viewChange_mem_mainListener heard)
  refine ⟨_, changed, (shadows.fire events).take (shadows.processId v) ?_ ?_ own⟩
  · exact { same with view := newView }
  · apply sameBallots_nil.cons
    change some (Ballot.log (env.system v).processId _ (env.system v).round) =
      some (.log (replicas v).nodeId _ _)
    rw [shadows.processId, nodeId, newView, same.round]

section Voting

variable {start : Aspen.GlobalContext} (run : Reachable cluster.specification start env)
  (shadows : Shadows cluster replicas sent env) (correct : v ∈ cluster.correct)
  (nodeId : (replicas v).nodeId = v)
  (stored : ∀ msg, (replicas v).Stores msg → ∀ ballot, msg.ballot = some ballot →
    Vouched cluster sent ballot)

include nodeId in
/-- The ballots of a REPAIR move at `v` are those of `v`. -/
theorem own_of_move (move : RepairMove (replicas v) next effects) (ballot : Ballot)
    (cast : Cast (effects.map Effect.message) ballot) : ballot.sender = v :=
  (own_of_repairMove move cast).trans nodeId

include run shadows correct nodeId stored

/-- The leader proposes in the specification, too. -/
theorem propose (small : cluster.config.n < 2 ^ 64)
    (config : (replicas v).config = cluster.config) {historyHash : UInt64}
    (guard : canBroadcastHistory (replicas v) = some historyHash) :
    ∃ later, Reachable cluster.specification start later ∧
      Shadows cluster
        (Function.update replicas v
          { replicas v with phase := .preparePhase, proposedHistoryHash := historyHash })
        (Function.update sent v (sent v ++ [.repairHistory (replicas v).nodeId (replicas v).view
          (replicas v).round historyHash])) later := by
  have vouched : ∀ ballot ∈ evidenceOf ((replicas v).logMsgs.filter
      (·.isLogMsgAt (replicas v).view (replicas v).round)), Vouched cluster sent ballot :=
    vouched_evidenceOf stored fun msg msgMem =>
      ⟨_, by simp [Replica.inbox], (Finset.mem_filter.mp msgMem).1⟩
  have fits := card_senders_lt small vouched
  apply answer run shadows correct vouched (own_of_move nodeId (.propose guard))
  intro ctx same self holds
  have offered := propose_offered config same (self.trans nodeId.symm) guard fits holds
  refine ⟨_, offered, self, ?_, ?_⟩
  · exact { same with proposed := rfl, phase := .inl rfl }
  · apply sameBallots_nil.cons
    change some (Ballot.history ctx.state.processId ctx.state.view ctx.state.round _) =
      some (.history (replicas v).nodeId _ _ _)
    rw [self, nodeId, same.view, same.round]

/-- A vote in the code is a vote in the specification. -/
theorem vote {sender : NodeId} {historyHash : UInt64}
    (relevant : (replicas v).phase = .collectingLogs ∨ (replicas v).phase = .preparePhase)
    (proposed : .repairHistory sender (replicas v).view (replicas v).round historyHash ∈
      (replicas v).repairHistoryMsgs) :
    ∃ later, Reachable cluster.specification start later ∧
      Shadows cluster
        (Function.update replicas v
          { replicas v with phase := .preparePhase, proposedHistoryHash := historyHash })
        (Function.update sent v (sent v ++ [.repairPrepare (replicas v).nodeId (replicas v).view
          (replicas v).round historyHash])) later := by
  have vouched : ∀ ballot ∈ evidenceOf {.repairHistory sender (replicas v).view
      (replicas v).round historyHash}, Vouched cluster sent ballot := by
    apply vouched_evidenceOf stored
    intro msg msgMem
    rw [Finset.mem_singleton.mp msgMem]
    exact ⟨_, by simp [Replica.inbox], proposed⟩
  apply answer run shadows correct vouched (own_of_move nodeId (.vote relevant proposed))
  intro ctx same self holds
  refine ⟨_, vote_offered same relevant holds, self, ?_, ?_⟩
  · exact { same with proposed := rfl, phase := .inl rfl }
  · apply sameBallots_nil.cons
    change some (Ballot.prepare ctx.state.processId ctx.state.view ctx.state.round _) =
      some (.prepare (replicas v).nodeId _ _ _)
    rw [self, nodeId, same.view, same.round]

/-- A lock in the code is a lock in the specification. -/
theorem lock (config : (replicas v).config = cluster.config) {historyHash : UInt64}
    (guard : canRepairCommit (replicas v) = some historyHash) :
    ∃ later, Reachable cluster.specification start later ∧
      Shadows cluster (Function.update replicas v { replicas v with phase := .commitPhase })
        (Function.update sent v (sent v ++ [.repairCommit (replicas v).nodeId (replicas v).view
          (replicas v).round historyHash])) later := by
  have vouched : ∀ ballot ∈ evidenceOf ((replicas v).repairPrepareMsgs.filter
      (·.isRepairPrepareFor (replicas v).view (replicas v).round historyHash)),
      Vouched cluster sent ballot :=
    vouched_evidenceOf stored fun msg msgMem =>
      ⟨_, by simp [Replica.inbox], (Finset.mem_filter.mp msgMem).1⟩
  apply answer run shadows correct vouched (own_of_move nodeId (.lock guard))
  intro ctx same self holds
  refine ⟨_, lock_offered config same guard holds, self, ?_, ?_⟩
  · exact { same with phase := .inl rfl }
  · apply sameBallots_nil.cons
    change some (Ballot.commit ctx.state.processId ctx.state.view ctx.state.round _) =
      some (.commit (replicas v).nodeId _ _ _)
    rw [self, nodeId, same.view, same.round]

/-- The two apply the same history. -/
theorem applyRepair (config : (replicas v).config = cluster.config)
    {historyHash round : UInt64} {kvStore : S}
    (guard : canApplyRepair (replicas v) = some historyHash)
    (advanced : addU64 (replicas v).round 1 = some round)
    (installed : mergedStore (replicas v).kvStore historyHash = some kvStore) :
    ∃ later, Reachable cluster.specification start later ∧
      Shadows cluster
        (Function.update replicas v
          { replicas v with
            kvStore := kvStore
            phase := .speculative
            round := round
            startIdx := historyHash
            kvSize := historyHash
            inRepair := false
            proposedHistoryHash := 0 })
        (Function.update sent v (sent v ++
          [.repairDone (replicas v).nodeId (replicas v).view (replicas v).round historyHash,
            .committedReply (replicas v).nodeId (replicas v).round (replicas v).kvSize]))
        later := by
  have vouched : ∀ ballot ∈ evidenceOf ((replicas v).repairCommitMsgs.filter
      (·.isRepairCommitFor (replicas v).view (replicas v).round historyHash)),
      Vouched cluster sent ballot :=
    vouched_evidenceOf stored fun msg msgMem =>
      ⟨_, by simp [Replica.inbox], (Finset.mem_filter.mp msgMem).1⟩
  apply answer run shadows correct vouched (own_of_move nodeId (.apply guard advanced installed))
  intro ctx same self holds
  refine ⟨_, apply_offered config same guard holds, self, ?_, ?_⟩
  · have newRound : ctx.state.round + 1 = round.toNat := by
      rw [toNat_add_one advanced, same.round]
    exact { same with
      round := newRound, inRepair := rfl, proposed := rfl, phase := .inl rfl }
  · apply SameBallots.cons
    · apply sameBallots_nil.cons
      rfl
    · change some (Ballot.done ctx.state.processId ctx.state.view ctx.state.round _) =
        some (.done (replicas v).nodeId _ _ _)
      rw [self, nodeId, same.view, same.round]

/-- The two catch up together, given the DONEs of enough nodes. -/
theorem catchUp {oldRound round : UInt64}
    (guard : canRepairDoneCatchup (replicas v) = some oldRound)
    (advanced : addU64 (replicas v).round 1 = some round)
    (distinct : cluster.config.f + 1 ≤ (senders (Message.isRepairDoneAt (replicas v).view
      (replicas v).round) (replicas v).repairDoneMsgs).card) :
    ∃ later, Reachable cluster.specification start later ∧
      Shadows cluster
        (Function.update replicas v
          { replicas v with
            phase := .speculative
            round := round
            startIdx := (replicas v).kvSize
            inRepair := false
            proposedHistoryHash := 0 })
        (Function.update sent v (sent v ++ [])) later := by
  have vouched : ∀ ballot ∈ evidenceOf ((replicas v).repairDoneMsgs.filter
        (·.isRepairDoneAt (replicas v).view (replicas v).round) ∪
      (replicas v).repairHistoryMsgs.filter
        (·.isRepairHistoryAt (replicas v).view (replicas v).round)),
      Vouched cluster sent ballot := by
    apply vouched_evidenceOf stored
    intro msg msgMem
    rcases Finset.mem_union.mp msgMem with isDone | isHistory
    · exact ⟨_, by simp [Replica.inbox], (Finset.mem_filter.mp isDone).1⟩
    · exact ⟨_, by simp [Replica.inbox], (Finset.mem_filter.mp isHistory).1⟩
  apply answer run shadows correct vouched (own_of_move nodeId (.catchup guard advanced))
  intro ctx same self holds
  refine ⟨_, catchup_offered same guard distinct holds, self, ?_, ?_⟩
  · have newRound : ctx.state.round + 1 = round.toNat := by
      rw [toNat_add_one advanced, same.round]
    exact { same with
      round := newRound, inRepair := rfl, proposed := rfl, phase := .inl rfl }
  · exact sameBallots_nil

end Voting

/-- Whatever a correct replica of the code does, the specification goes with it. -/
theorem step {start : Aspen.GlobalContext} (small : cluster.config.n < 2 ^ 64)
    (run : Reachable cluster.specification start env)
    (shadows : Shadows cluster replicas sent env) (correct : v ∈ cluster.correct)
    (nodeId : (replicas v).nodeId = v) (config : (replicas v).config = cluster.config)
    (stored : ∀ msg, (replicas v).Stores msg → ∀ ballot, msg.ballot = some ballot →
      Vouched cluster sent ballot)
    (move : RepairMove (replicas v) next effects)
    (distinct : effects = [] → next.round ≠ (replicas v).round →
      cluster.config.f + 1 ≤ (senders (Message.isRepairDoneAt (replicas v).view
        (replicas v).round) (replicas v).repairDoneMsgs).card) :
    ∃ later, Reachable cluster.specification start later ∧
      Shadows cluster (Function.update replicas v next)
        (Function.update sent v (sent v ++ effects.map Effect.message)) later := by
  have own := own_of_move nodeId move
  cases move with
  | quiet quiet silent => exact ⟨env, run, shadows.quiet quiet silent⟩
  | enter outside silent => exact shadows.enter run correct nodeId outside silent own
  | changeView collecting advanced =>
      exact shadows.changeView run correct nodeId collecting advanced own
  | propose guard => exact propose run shadows correct nodeId stored small config guard
  | vote relevant proposed => exact vote run shadows correct nodeId stored relevant proposed
  | lock guard => exact lock run shadows correct nodeId stored config guard
  | apply guard advanced installed =>
      exact applyRepair run shadows correct nodeId stored config guard advanced installed
  | @catchup oldRound round guard advanced =>
      have later : round ≠ (replicas v).round := by
        intro equal
        have grows := UInt64.lt_iff_toNat_lt.mp (lt_of_addU64_one advanced)
        rw [equal] at grows
        exact lt_irrefl _ grows
      exact catchUp run shadows correct nodeId stored guard advanced (distinct rfl later)

end Shadows

end Raspen
