import Raspen.Aspen.Moves
import Raspen.Choreo.Announcement

/-!
# The invariants of the specification

`specs/aspen.qnt` states its safety as invariants of the whole environment.  They hold in
every reachable state, whatever timeouts are pending, and even when messages are late and
the faulty nodes send more LOGs and votes than the file injects: a correct replica has one
voice in its LOGs and its leader one in its histories.
-/

namespace Raspen.Aspen

open Raspen.Transition

/-! ## The statements -/

/-- A correct replica in REPAIR is neither in Speculative nor in Aligning phase. -/
def PhaseConsistency (constants : Constants) (env : GlobalContext) : Prop :=
  ∀ node ∈ constants.correctNodes, (env.system node).inRepair = true →
    (env.system node).phase ≠ .speculative ∧ (env.system node).phase ≠ .aligning

/-- Correct replicas that commit in one view and round commit one history. -/
def RepairHistoryAgreement (constants : Constants) (env : GlobalContext) : Prop :=
  ∀ node ∈ constants.correctNodes, ∀ other ∈ constants.correctNodes,
    (env.system node).phase = .commitPhase → (env.system other).phase = .commitPhase →
    (env.system node).view = (env.system other).view →
    (env.system node).round = (env.system other).round →
    (env.system node).proposedHistoryHash = (env.system other).proposedHistoryHash

/-- A replica that prepares has seen a REPAIR-HISTORY of the leader. -/
def OnlyLeaderProposesHistory (constants : Constants) (env : GlobalContext) : Prop :=
  ∀ node ∈ constants.nodes, (env.system node).phase = .preparePhase →
    ∃ sender historyHash, .repairHistory sender (env.system node).view (env.system node).round
      historyHash ∈ env.messages node ∧
      constants.isLeader sender (env.system node).view = true

/-- No mailbox holds two LOGs or two REPAIR-PREPAREs of a correct replica that differ in
their content only. -/
def NoHonestEquivocation (constants : Constants) (env : GlobalContext) : Prop :=
  ∀ node ∈ constants.correctNodes, ∀ receiver ∈ constants.nodes,
    logEquivocationIn node (env.messages receiver) = false ∧
      prepareEquivocationIn node (env.messages receiver) = false

/-! ## One voice -/

/-- The replica has sent its LOG for `turn`, a view and a round, or is past it. -/
def Entered (st : LocalState) (turn : Int × Int) : Prop :=
  turn.2 < st.round ∨ (turn.2 = st.round ∧ st.inRepair = true ∧ turn.1 ≤ st.view)

/-- The replica votes in the round of `turn`, or is past it. -/
def Voted (st : LocalState) (turn : Int × Int) : Prop :=
  turn.2 < st.round ∨
    (turn.2 = st.round ∧ (st.phase = .preparePhase ∨ st.phase = .commitPhase))

/-- A LOG announces the log of a correct replica. -/
def logAnnouncement (constants : Constants) : Message → Option (NodeId × (Int × Int) × Int)
  | .logMsg sender view round logHash =>
      if sender ∈ constants.faultyNodes then none else some (sender, (view, round), logHash)
  | _ => none

/-- A REPAIR-HISTORY announces the history of a leader. -/
def historyAnnouncement : Message → Option (NodeId × (Int × Int) × Int)
  | .repairHistory sender view round historyHash => some (sender, (view, round), historyHash)
  | _ => none

/-- What holds in every reachable state. -/
structure Sound (constants : Constants) (env : GlobalContext) : Prop where
  processId : ∀ node, (env.system node).processId = node
  inRepair : ∀ node, (env.system node).inRepair = (env.system node).phase.isRepair
  logs : Choreo.OneVoice (logAnnouncement constants) Entered env
  histories : Choreo.OneVoice historyAnnouncement Voted env
  led : ∀ receiver sender view round historyHash,
    .repairHistory sender view round historyHash ∈ env.messages receiver →
      constants.isLeader sender view = true ∧ 0 ≤ historyHash
  backed : ∀ node,
    (env.system node).phase = .preparePhase ∨ (env.system node).phase = .commitPhase →
    ∃ sender, .repairHistory sender (env.system node).view (env.system node).round
      (env.system node).proposedHistoryHash ∈ env.messages node
  prepares : ∀ receiver node view round historyHash, node ∉ constants.faultyNodes →
    .repairPrepare node view round historyHash ∈ env.messages receiver →
    ∃ other sender, .repairHistory sender view round historyHash ∈ env.messages other

/-- The histories of one view and round are one. -/
theorem Sound.history_unique {constants : Constants} {env : GlobalContext}
    (sound : Sound constants env) {receiver receiver' sender sender' : NodeId}
    {view round historyHash historyHash' : Int}
    (stored : .repairHistory sender view round historyHash ∈ env.messages receiver)
    (stored' : .repairHistory sender' view round historyHash' ∈ env.messages receiver') :
    historyHash = historyHash' := by
  have sameSender : sender = sender' :=
    Constants.leader_unique (sound.led _ _ _ _ _ stored).1 (sound.led _ _ _ _ _ stored').1
  subst sameSender
  exact sound.histories.unique sender (view, round) historyHash historyHash'
    ⟨receiver, _, stored, rfl⟩ ⟨receiver', _, stored', rfl⟩

/-! ## One transition -/

section Transition

variable {constants : Constants} {ctx : LocalContext} {transition : Transition}

theorem processId_of_repairStep (steps : RepairStep constants ctx transition) :
    transition.postState.processId = ctx.state.processId := by
  cases steps with
  | quiet quiet _ => exact quiet.processId
  | _ => rfl

theorem inRepair_of_repairStep (steps : RepairStep constants ctx transition)
    (consistent : ctx.state.inRepair = ctx.state.phase.isRepair) :
    transition.postState.inRepair = transition.postState.phase.isRepair := by
  cases steps with
  | quiet quiet _ =>
      rw [quiet.inRepair, consistent]
      rcases quiet.phase with same | ⟨outside, before⟩
      · rw [same]
      · rw [outside, before]
  | enter _ _ => rfl
  | propose collecting _ _ =>
      rw [collecting] at consistent
      exact consistent
  | vote relevant _ =>
      rcases relevant with phase | phase <;> rw [phase] at consistent <;> exact consistent
  | lock preparing =>
      rw [preparing] at consistent
      exact consistent
  | apply _ => rfl
  | catchup _ => rfl
  | changeView _ => exact consistent

theorem entered_mono (steps : RepairStep constants ctx transition) {turn : Int × Int}
    (entered : Entered ctx.state turn) : Entered transition.postState turn := by
  cases steps with
  | quiet quiet _ =>
      rw [Entered, quiet.round, quiet.inRepair, quiet.view]
      exact entered
  | enter outside _ =>
      rcases entered with past | ⟨_, inside, _⟩
      · exact .inl past
      · rw [outside] at inside
        contradiction
  | propose _ _ _ => exact entered
  | vote _ _ => exact entered
  | lock _ => exact entered
  | apply _ | catchup _ =>
      left
      change turn.2 < ctx.state.round + 1
      rcases entered with past | ⟨now, _, _⟩ <;> omega
  | changeView _ =>
      rcases entered with past | ⟨now, inside, reached⟩
      · exact .inl past
      · exact .inr ⟨now, inside, reached.trans (Int.le_add_one le_rfl)⟩

theorem voted_mono (steps : RepairStep constants ctx transition)
    (consistent : ctx.state.inRepair = ctx.state.phase.isRepair) {turn : Int × Int}
    (voted : Voted ctx.state turn) : Voted transition.postState turn := by
  rcases voted with past | ⟨now, voting⟩
  · left
    apply past.trans_le
    cases steps with
    | quiet quiet _ => exact quiet.round.ge
    | apply _ | catchup _ => exact Int.le_add_one le_rfl
    | _ => exact le_rfl
  · cases steps with
    | quiet quiet _ =>
        right
        rw [quiet.round]
        rcases quiet.phase with same | ⟨_, outside⟩
        · rw [same]
          exact ⟨now, voting⟩
        · rcases voting with phase | phase <;> simp [phase, Phase.isRepair] at outside
    | enter outside _ =>
        rw [outside] at consistent
        rcases voting with phase | phase <;> simp [phase, Phase.isRepair] at consistent
    | propose _ _ _ => exact .inr ⟨now, .inl rfl⟩
    | vote _ _ => exact .inr ⟨now, .inl rfl⟩
    | lock _ => exact .inr ⟨now, .inr rfl⟩
    | apply _ | catchup _ =>
        left
        change turn.2 < ctx.state.round + 1
        omega
    | changeView collecting => rcases voting with phase | phase <;> simp [collecting] at phase

/-- A transition sends a LOG when the replica enters a view of its round. -/
theorem log_of_reaches (steps : RepairStep constants ctx transition)
    (consistent : ctx.state.inRepair = ctx.state.phase.isRepair) {effect : Effect}
    (effectMem : effect ∈ transition.effects) {receiver sender : NodeId}
    {view round logHash : Int}
    (reaches : effect.Reaches receiver (.logMsg sender view round logHash)) :
    sender = ctx.state.processId ∧ ¬Entered ctx.state (view, round) ∧
      Entered transition.postState (view, round) ∧
      logHash = logTopHash ctx.state.kvStore ctx.state.kvSize := by
  cases steps with
  | quiet _ quiet => simpa [Message.isRepair] using quiet effect effectMem receiver _ reaches
  | enter outside quiet =>
      rcases List.mem_append.mp effectMem with proofMem | last
      · simpa [Message.isRepair] using quiet effect proofMem receiver _ reaches
      · rw [List.mem_singleton.mp last] at reaches
        cases reaches
        refine ⟨rfl, ?_, .inr ⟨rfl, rfl, le_rfl⟩, rfl⟩
        rintro (past | ⟨_, inside, _⟩)
        · exact lt_irrefl _ past
        · rw [outside] at inside
          contradiction
  | changeView collecting =>
      rw [List.mem_singleton.mp effectMem] at reaches
      cases reaches
      rw [collecting] at consistent
      refine ⟨rfl, ?_, .inr ⟨rfl, consistent, le_rfl⟩, rfl⟩
      rintro (past | ⟨_, _, reached⟩)
      · exact lt_irrefl _ past
      · exact absurd reached (Int.not_le.mpr (Int.lt_add_one_iff.mpr le_rfl))
  | apply _ =>
      simp only [handleApplyRepair, List.mem_cons, List.not_mem_nil, or_false] at effectMem
      rcases effectMem with rfl | rfl <;> cases reaches
  | catchup _ => simp [handleRepairDoneCatchup] at effectMem
  | propose _ _ _ | vote _ _ | lock _ =>
      rw [List.mem_singleton.mp effectMem] at reaches
      cases reaches

/-- A transition sends a REPAIR-HISTORY when the leader starts to vote. -/
theorem history_of_reaches (steps : RepairStep constants ctx transition) {effect : Effect}
    (effectMem : effect ∈ transition.effects) {receiver sender : NodeId}
    {view round historyHash : Int}
    (reaches : effect.Reaches receiver (.repairHistory sender view round historyHash)) :
    sender = ctx.state.processId ∧ constants.isLeader sender view = true ∧ 0 ≤ historyHash ∧
      ¬Voted ctx.state (view, round) ∧ Voted transition.postState (view, round) ∧
      historyHash = transition.postState.proposedHistoryHash := by
  cases steps with
  | quiet _ quiet => simpa [Message.isRepair] using quiet effect effectMem receiver _ reaches
  | enter _ quiet =>
      rcases List.mem_append.mp effectMem with proofMem | last
      · simpa [Message.isRepair] using quiet effect proofMem receiver _ reaches
      · rw [List.mem_singleton.mp last] at reaches
        cases reaches
  | propose collecting leads nonneg =>
      rw [List.mem_singleton.mp effectMem] at reaches
      cases reaches
      refine ⟨rfl, leads, nonneg, ?_, .inr ⟨rfl, .inl rfl⟩, rfl⟩
      rintro (past | ⟨_, phase | phase⟩)
      · exact lt_irrefl _ past
      · simp [collecting] at phase
      · simp [collecting] at phase
  | apply _ =>
      simp only [handleApplyRepair, List.mem_cons, List.not_mem_nil, or_false] at effectMem
      rcases effectMem with rfl | rfl <;> cases reaches
  | catchup _ => simp [handleRepairDoneCatchup] at effectMem
  | vote _ _ | lock _ | changeView _ =>
      rw [List.mem_singleton.mp effectMem] at reaches
      cases reaches

/-- A transition sends a REPAIR-PREPARE for a history that the replica has seen. -/
theorem prepare_of_reaches (steps : RepairStep constants ctx transition) {effect : Effect}
    (effectMem : effect ∈ transition.effects) {receiver sender : NodeId}
    {view round historyHash : Int}
    (reaches : effect.Reaches receiver (.repairPrepare sender view round historyHash)) :
    hasRepairHistory ctx.messages view round = true ∧
      historyHash = getHistoryHash ctx.messages view round := by
  cases steps with
  | quiet _ quiet => simpa [Message.isRepair] using quiet effect effectMem receiver _ reaches
  | enter _ quiet =>
      rcases List.mem_append.mp effectMem with proofMem | last
      · simpa [Message.isRepair] using quiet effect proofMem receiver _ reaches
      · rw [List.mem_singleton.mp last] at reaches
        cases reaches
  | vote _ proposed =>
      rw [List.mem_singleton.mp effectMem] at reaches
      cases reaches
      exact ⟨proposed, rfl⟩
  | apply _ =>
      simp only [handleApplyRepair, List.mem_cons, List.not_mem_nil, or_false] at effectMem
      rcases effectMem with rfl | rfl <;> cases reaches
  | catchup _ => simp [handleRepairDoneCatchup] at effectMem
  | propose _ _ _ | lock _ | changeView _ =>
      rw [List.mem_singleton.mp effectMem] at reaches
      cases reaches

/-- A replica that votes has voted for the same history before, or has proposed or seen it. -/
theorem backed_of_repairStep (steps : RepairStep constants ctx transition)
    (voting : transition.postState.phase = .preparePhase ∨
      transition.postState.phase = .commitPhase) :
    (transition.postState.view = ctx.state.view ∧
      transition.postState.round = ctx.state.round) ∧
    (((ctx.state.phase = .preparePhase ∨ ctx.state.phase = .commitPhase) ∧
        transition.postState.proposedHistoryHash = ctx.state.proposedHistoryHash) ∨
      (∃ effect ∈ transition.effects, ∀ receiver, effect.Reaches receiver
        (.repairHistory ctx.state.processId ctx.state.view ctx.state.round
          transition.postState.proposedHistoryHash)) ∨
      (hasRepairHistory ctx.messages ctx.state.view ctx.state.round = true ∧
        transition.postState.proposedHistoryHash =
          getHistoryHash ctx.messages ctx.state.view ctx.state.round)) := by
  cases steps with
  | quiet quiet _ =>
      refine ⟨⟨quiet.view, quiet.round⟩, .inl ⟨?_, quiet.proposed⟩⟩
      rcases quiet.phase with same | ⟨outside, _⟩
      · rw [same] at voting
        exact voting
      · rcases voting with phase | phase <;> simp [phase, Phase.isRepair] at outside
  | propose _ _ _ => exact ⟨⟨rfl, rfl⟩, .inr (.inl ⟨_, List.mem_singleton_self _, fun _ => rfl⟩)⟩
  | vote _ proposed => exact ⟨⟨rfl, rfl⟩, .inr (.inr ⟨proposed, rfl⟩)⟩
  | lock preparing => exact ⟨⟨rfl, rfl⟩, .inl ⟨.inl preparing, rfl⟩⟩
  | enter _ _ | apply _ | catchup _ => rcases voting with phase | phase <;> cases phase
  | changeView collecting =>
      rcases voting with phase | phase <;> exact absurd (collecting.symm.trans phase) (by decide)

end Transition

/-! ## Runs -/

theorem applyCustomEffect_eq (env : GlobalContext) (effect : Unit) :
    applyCustomEffect env effect = env :=
  rfl

theorem mem_allByzantineMessages {constants : Constants} {msg : Message}
    (msgMem : msg ∈ allByzantineMessages constants) :
    ∃ node ∈ constants.faultyNodes,
      (∃ logHash, msg = .logMsg node 0 0 logHash) ∨
        ∃ historyHash, msg = .repairPrepare node 0 0 historyHash := by
  simp only [allByzantineMessages, byzantineLogMsgs, byzantinePrepareMsgs, Finset.mem_union,
    Finset.mem_biUnion, Finset.mem_insert, Finset.mem_singleton] at msgMem
  rcases msgMem with ⟨node, faulty, rfl | rfl⟩ | ⟨node, faulty, rfl | rfl⟩
  · exact ⟨node, faulty, .inl ⟨_, rfl⟩⟩
  · exact ⟨node, faulty, .inl ⟨_, rfl⟩⟩
  · exact ⟨node, faulty, .inr ⟨_, rfl⟩⟩
  · exact ⟨node, faulty, .inr ⟨_, rfl⟩⟩

theorem sound_initWith (constants : Constants) (events : NodeId → Finset Event) :
    Sound constants (initWith constants events) where
  processId _ := rfl
  inRepair _ := rfl
  logs := by
    apply Choreo.OneVoice.of_silent
    intro node msg msgMem
    rcases mem_allByzantineMessages msgMem with ⟨_, faulty, ⟨_, rfl⟩ | ⟨_, rfl⟩⟩
    · exact if_pos faulty
    · rfl
  histories := by
    apply Choreo.OneVoice.of_silent
    intro node msg msgMem
    rcases mem_allByzantineMessages msgMem with ⟨_, _, ⟨_, rfl⟩ | ⟨_, rfl⟩⟩ <;> rfl
  led receiver sender view round historyHash stored := by
    rcases mem_allByzantineMessages stored with ⟨_, _, ⟨_, other⟩ | ⟨_, other⟩⟩ <;> cases other
  backed node voting := by
    rcases voting with phase | phase <;> cases phase
  prepares receiver node view round historyHash honest stored := by
    rcases mem_allByzantineMessages stored with ⟨_, faulty, ⟨_, other⟩ | ⟨_, other⟩⟩
    · cases other
    · cases other
      exact absurd faulty honest

theorem logAnnouncement_eq_some_iff {constants : Constants} {msg : Message} {node : NodeId}
    {turn : Int × Int} {logHash : Int} :
    logAnnouncement constants msg = some (node, turn, logHash) ↔
      node ∉ constants.faultyNodes ∧ msg = .logMsg node turn.1 turn.2 logHash := by
  cases msg with
  | logMsg sender view round hash =>
      simp only [logAnnouncement, Option.ite_none_left_eq_some, Option.some.injEq, Prod.ext_iff,
        Message.logMsg.injEq]
      constructor
      · rintro ⟨honest, rfl, ⟨rfl, rfl⟩, rfl⟩
        exact ⟨honest, rfl, rfl, rfl, rfl⟩
      · rintro ⟨honest, rfl, rfl, rfl, rfl⟩
        exact ⟨honest, rfl, ⟨rfl, rfl⟩, rfl⟩
  | _ => simp [logAnnouncement]

theorem historyAnnouncement_eq_some_iff {msg : Message} {node : NodeId} {turn : Int × Int}
    {historyHash : Int} :
    historyAnnouncement msg = some (node, turn, historyHash) ↔
      msg = .repairHistory node turn.1 turn.2 historyHash := by
  cases msg with
  | repairHistory sender view round hash =>
      simp only [historyAnnouncement, Option.some.injEq, Prod.ext_iff,
        Message.repairHistory.injEq]
      tauto
  | _ => simp [historyAnnouncement]

namespace Sound

variable {constants : Constants} {env : GlobalContext} {v : NodeId} {visible : Finset Message}
  {transition : Transition}

/-- What a replica has seen of a history, its leader has proposed. -/
theorem exists_history_of_seen (sound : Sound constants env) (sub : visible ⊆ env.messages v)
    {view round : Int} (proposed : hasRepairHistory visible view round = true) :
    ∃ sender, .repairHistory sender view round (getHistoryHash visible view round) ∈
      env.messages v := by
  obtain ⟨sender, stored⟩ := exists_history_of_getHistoryHash proposed
    fun sender historyHash stored => (sound.led _ _ _ _ _ (sub stored)).2
  exact ⟨sender, sub stored⟩

variable (steps : RepairStep constants ((Choreo.convertContext env v).seeing visible) transition)
include steps

/-- A correct replica still has one voice in its LOGs. -/
theorem logs_applyEffect (sound : Sound constants env) :
    Choreo.OneVoice (logAnnouncement constants) Entered
      (Choreo.applyEffect applyCustomEffect env v transition) := by
  have consistent : (env.system v).inRepair = (env.system v).phase.isRepair := sound.inRepair v
  apply sound.logs.applyEffect applyCustomEffect_eq
  · exact fun turn => entered_mono steps
  · intro effect effectMem receiver msg sender turn logHash reaches announces
    obtain ⟨_, rfl⟩ := logAnnouncement_eq_some_iff.mp announces
    obtain ⟨isSelf, ahead, now, _⟩ := log_of_reaches steps consistent effectMem reaches
    exact ⟨isSelf.trans (sound.processId v), ahead, now⟩
  · intro effect effectMem effect' effectMem' receiver receiver' msg msg' turn logHash logHash'
      reaches reaches' announces announces'
    obtain ⟨_, rfl⟩ := logAnnouncement_eq_some_iff.mp announces
    obtain ⟨_, rfl⟩ := logAnnouncement_eq_some_iff.mp announces'
    exact (log_of_reaches steps consistent effectMem reaches).2.2.2.trans
      (log_of_reaches steps consistent effectMem' reaches').2.2.2.symm

/-- A leader still has one voice in its histories. -/
theorem histories_applyEffect (sound : Sound constants env) :
    Choreo.OneVoice historyAnnouncement Voted
      (Choreo.applyEffect applyCustomEffect env v transition) := by
  have consistent : (env.system v).inRepair = (env.system v).phase.isRepair := sound.inRepair v
  apply sound.histories.applyEffect applyCustomEffect_eq
  · exact fun turn => voted_mono steps consistent
  · intro effect effectMem receiver msg sender turn historyHash reaches announces
    rw [historyAnnouncement_eq_some_iff.mp announces] at reaches
    obtain ⟨isSelf, _, _, ahead, now, _⟩ := history_of_reaches steps effectMem reaches
    exact ⟨isSelf.trans (sound.processId v), ahead, now⟩
  · intro effect effectMem effect' effectMem' receiver receiver' msg msg' turn historyHash
      historyHash' reaches reaches' announces announces'
    rw [historyAnnouncement_eq_some_iff.mp announces] at reaches
    rw [historyAnnouncement_eq_some_iff.mp announces'] at reaches'
    exact (history_of_reaches steps effectMem reaches).2.2.2.2.2.trans
      (history_of_reaches steps effectMem' reaches').2.2.2.2.2.symm

/-- A replica that votes still has the history it votes for in its mailbox. -/
theorem backed_applyEffect (sound : Sound constants env) (sub : visible ⊆ env.messages v)
    (voting : transition.postState.phase = .preparePhase ∨
      transition.postState.phase = .commitPhase) :
    ∃ sender, .repairHistory sender transition.postState.view transition.postState.round
      transition.postState.proposedHistoryHash ∈
        (Choreo.applyEffect applyCustomEffect env v transition).messages v := by
  simp only [Choreo.mem_messages_applyEffect_iff applyCustomEffect_eq]
  obtain ⟨⟨view, round⟩, before | ⟨effect, effectMem, reaches⟩ | ⟨proposed, chosen⟩⟩ :=
    backed_of_repairStep steps voting
  · obtain ⟨sender, stored⟩ := sound.backed v before.1
    rw [view, round, before.2]
    exact ⟨sender, .inl stored⟩
  · rw [view, round]
    exact ⟨_, .inr ⟨effect, effectMem, reaches v⟩⟩
  · obtain ⟨sender, stored⟩ := sound.exists_history_of_seen sub proposed
    rw [view, round, chosen]
    exact ⟨sender, .inl stored⟩

/-- A transition on visible messages keeps everything. -/
theorem applyEffect (sound : Sound constants env) (sub : visible ⊆ env.messages v) :
    Sound constants (Choreo.applyEffect applyCustomEffect env v transition) := by
  have source : ∀ {receiver : NodeId} {msg : Message},
      msg ∈ (Choreo.applyEffect applyCustomEffect env v transition).messages receiver →
      msg ∈ env.messages receiver ∨ ∃ effect ∈ transition.effects, effect.Reaches receiver msg :=
    (Choreo.mem_messages_applyEffect_iff applyCustomEffect_eq).mp
  have kept : ∀ {receiver : NodeId} {msg : Message}, msg ∈ env.messages receiver →
      msg ∈ (Choreo.applyEffect applyCustomEffect env v transition).messages receiver :=
    fun stored => (Choreo.mem_messages_applyEffect_iff applyCustomEffect_eq).mpr (.inl stored)
  constructor
  case processId =>
    apply Choreo.forall_system_applyEffect applyCustomEffect_eq
      (P := fun node st => st.processId = node)
    · exact (processId_of_repairStep steps).trans (sound.processId v)
    · exact fun node _ => sound.processId node
  case inRepair =>
    apply Choreo.forall_system_applyEffect applyCustomEffect_eq
      (P := fun _ st => st.inRepair = st.phase.isRepair)
    · exact inRepair_of_repairStep steps (sound.inRepair v)
    · exact fun node _ => sound.inRepair node
  case logs => exact sound.logs_applyEffect steps
  case histories => exact sound.histories_applyEffect steps
  case led =>
    intro receiver sender view round historyHash stored
    rcases source stored with old | ⟨effect, effectMem, reaches⟩
    · exact sound.led receiver sender view round historyHash old
    · obtain ⟨_, leads, nonneg, _⟩ := history_of_reaches steps effectMem reaches
      exact ⟨leads, nonneg⟩
  case backed =>
    apply Choreo.forall_system_applyEffect applyCustomEffect_eq
      (P := fun node st => st.phase = .preparePhase ∨ st.phase = .commitPhase →
        ∃ sender, .repairHistory sender st.view st.round st.proposedHistoryHash ∈
          (Choreo.applyEffect applyCustomEffect env v transition).messages node)
    · exact sound.backed_applyEffect steps sub
    · intro node _ voting
      obtain ⟨sender, stored⟩ := sound.backed node voting
      exact ⟨sender, kept stored⟩
  case prepares =>
    intro receiver node view round historyHash honest stored
    rcases source stored with old | ⟨effect, effectMem, reaches⟩
    · obtain ⟨other, sender, proposed⟩ :=
        sound.prepares receiver node view round historyHash honest old
      exact ⟨other, sender, kept proposed⟩
    · obtain ⟨proposed, rfl⟩ := prepare_of_reaches steps effectMem reaches
      obtain ⟨sender, seenBefore⟩ := sound.exists_history_of_seen sub proposed
      exact ⟨v, sender, kept seenBefore⟩

end Sound

/-- An admitted message that is no history of anyone and names faulty nodes only changes
nothing. -/
theorem Sound.inject {constants : Constants} {env : GlobalContext} (sound : Sound constants env)
    {msg : Message} (faulty : ∀ node ∈ msg.sender, node ∈ constants.faultyNodes)
    (noHistory : historyAnnouncement msg = none) :
    Sound constants { env with messages := fun node => insert msg (env.messages node) } where
  processId := sound.processId
  inRepair := sound.inRepair
  logs := by
    apply sound.logs.inject
    cases msg with
    | logMsg sender view round logHash => exact if_pos (faulty sender rfl)
    | _ => rfl
  histories := sound.histories.inject noHistory
  led receiver sender view round historyHash stored := by
    rcases Finset.mem_insert.mp stored with rfl | old
    · contradiction
    · exact sound.led receiver sender view round historyHash old
  backed node voting := by
    obtain ⟨sender, stored⟩ := sound.backed node voting
    exact ⟨sender, Finset.mem_insert_of_mem stored⟩
  prepares receiver node view round historyHash honest stored := by
    rcases Finset.mem_insert.mp stored with rfl | old
    · exact absurd (faulty node rfl) honest
    · obtain ⟨other, sender, proposed⟩ :=
        sound.prepares receiver node view round historyHash honest old
      exact ⟨other, sender, Finset.mem_insert_of_mem proposed⟩

/-- It all holds in an open environment that admits messages of faulty nodes, histories
excepted: the specification votes for any history, whoever it is from. -/
theorem sound_of_openRun {constants : Constants} {events : NodeId → Finset Event}
    {admits : Message → Bool} {env : GlobalContext}
    (faulty : ∀ msg, admits msg = true → ∀ node ∈ msg.sender, node ∈ constants.faultyNodes)
    (noHistory : ∀ msg, admits msg = true → historyAnnouncement msg = none)
    (run : Reachable
      (Choreo.openStep constants.nodes (mainListener constants) applyCustomEffect admits)
      (initWith constants events) env) : Sound constants env := by
  apply run.invariant (sound_initWith constants events)
  intro earlier later action _ sound steps
  rcases Choreo.openStep_cases steps with ⟨v, _, visible, sub, transition, transitionMem, rfl⟩ |
    ⟨msg, admitted, rfl⟩ | ⟨events, rfl⟩
  · exact sound.applyEffect (repairStep_of_mem transitionMem) sub
  · exact sound.inject (faulty msg admitted) (noHistory msg admitted)
  · exact { sound with
      logs := sound.logs.congr rfl fun _ _ _ announced => announced
      histories := sound.histories.congr rfl fun _ _ _ announced => announced }

/-! ## The invariants -/

variable {constants : Constants} {env : GlobalContext}

theorem Sound.phaseConsistency (sound : Sound constants env) : PhaseConsistency constants env := by
  intro node _ inside
  rw [sound.inRepair] at inside
  constructor <;> intro phase <;> simp [phase, Phase.isRepair] at inside

theorem Sound.repairHistoryAgreement (sound : Sound constants env) :
    RepairHistoryAgreement constants env := by
  intro node _ other _ committing committing' view round
  obtain ⟨sender, stored⟩ := sound.backed node (.inr committing)
  obtain ⟨sender', stored'⟩ := sound.backed other (.inr committing')
  rw [view, round] at stored
  exact sound.history_unique stored stored'

theorem Sound.onlyLeaderProposesHistory (sound : Sound constants env) :
    OnlyLeaderProposesHistory constants env := by
  intro node _ preparing
  obtain ⟨sender, stored⟩ := sound.backed node (.inl preparing)
  exact ⟨sender, _, stored, (sound.led node sender _ _ _ stored).1⟩

theorem Sound.noHonestEquivocation (sound : Sound constants env) :
    NoHonestEquivocation constants env := by
  intro node correct receiver _
  have honest : node ∉ constants.faultyNodes := (Finset.mem_filter.mp correct).2
  constructor
  · rw [logEquivocationIn, decide_eq_false_iff_not]
    rintro ⟨first, firstMem, second, secondMem, equivocates⟩
    cases first <;> cases second <;> simp [isLogEquivocation] at equivocates
    case logMsg.logMsg sender view round logHash sender' view' round' logHash' =>
      obtain ⟨rfl, rfl, rfl, rfl, differ⟩ := equivocates
      apply differ
      exact sound.logs.unique _ (view, round) logHash logHash'
        ⟨receiver, _, firstMem, if_neg honest⟩ ⟨receiver, _, secondMem, if_neg honest⟩
  · rw [prepareEquivocationIn, decide_eq_false_iff_not]
    rintro ⟨first, firstMem, second, secondMem, equivocates⟩
    cases first <;> cases second <;> simp [isPrepareEquivocation] at equivocates
    case repairPrepare.repairPrepare sender view round hash sender' view' round' hash' =>
      obtain ⟨rfl, rfl, rfl, rfl, differ⟩ := equivocates
      apply differ
      obtain ⟨_, _, proposed⟩ := sound.prepares receiver _ view round hash honest firstMem
      obtain ⟨_, _, proposed'⟩ := sound.prepares receiver _ view round hash' honest secondMem
      exact sound.history_unique proposed proposed'

/-- In every state that the steps of the specification reach, for every configuration and
whatever timeouts are pending, its four invariants of REPAIR hold. -/
theorem invariants_hold {events : NodeId → Finset Event}
    (run : Reachable (step constants) (initWith constants events) env) :
    PhaseConsistency constants env ∧ RepairHistoryAgreement constants env ∧
      OnlyLeaderProposesHistory constants env ∧ NoHonestEquivocation constants env := by
  have closed : Reachable
      (Choreo.openStep constants.nodes (mainListener constants) applyCustomEffect fun _ => false)
      (initWith constants events) env := Choreo.openRun_of_run run
  have sound : Sound constants env := by
    apply sound_of_openRun _ _ closed
    · intro msg admitted
      contradiction
    · intro msg admitted
      contradiction
  exact ⟨sound.phaseConsistency, sound.repairHistoryAgreement, sound.onlyLeaderProposesHistory,
    sound.noHonestEquivocation⟩

/-! ## A run into the commit phase -/

/-- All timeouts are pending at every node. -/
def allTimeouts (_node : NodeId) : Finset Event :=
  {.chkptTimeout 0, .repairViewTimeout}

/-- Two replicas prove a timeout, the five correct ones enter REPAIR and move on to view 1,
its leader proposes, they prepare, and two of them commit. -/
def committingChoices : List (NodeId × (LocalContext → Transition)) :=
  ["r0", "r1"].map (·, fun ctx => handleSpeculate ctx 0) ++
    ["r0", "r1"].map (·, fun ctx => handleChkptTimeout ctx 0) ++
    [("r0", fun ctx => handleTimeoutProof ctx 0)] ++
    ["r1", "r2", "r3", "r4"].map (·, fun ctx => handleEnterRepair ctx 0) ++
    ["r0", "r1", "r2", "r3", "r4"].map (·, fun ctx => handleViewChange ctx 1) ++
    [("r1", fun ctx => handleBroadcastHistory ctx 5)] ++
    ["r0", "r1", "r2", "r3", "r4"].map (·, fun ctx => handleRepairPrepare ctx 5) ++
    ["r0", "r1"].map (·, fun ctx => handleRepairCommit ctx 5)

def committingEnv : GlobalContext :=
  (execute (Choreo.act sixNodes.nodes (mainListener sixNodes) applyCustomEffect)
    (initWith sixNodes allTimeouts) committingChoices).get (by decide +kernel)

theorem run_committingEnv :
    Reachable (step sixNodes) (initWith sixNodes allTimeouts) committingEnv :=
  Choreo.reachable_of_act (reachable_of_execute (Option.some_get _).symm)

theorem invariants_hold_committing :
    (committingEnv.system "r0").phase = .commitPhase ∧
      (committingEnv.system "r1").phase = .commitPhase ∧
      (committingEnv.system "r0").view = 1 ∧ PhaseConsistency sixNodes committingEnv ∧
      RepairHistoryAgreement sixNodes committingEnv ∧
      OnlyLeaderProposesHistory sixNodes committingEnv ∧
      NoHonestEquivocation sixNodes committingEnv :=
  ⟨by decide +kernel, by decide +kernel, by decide +kernel, invariants_hold run_committingEnv⟩

end Raspen.Aspen
