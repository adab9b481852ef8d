import Raspen.Consensus.Applied
import Raspen.Consensus.PastRounds

/-!
# Entering and leaving alignment

The alignment guard counts stored CHECKPOINTs for the replica's own checkpoint index
and never reads their hashes.  So it takes agreement for a divergence, and it finds the
same divergence again for as long as the CHECKPOINTs stay stored.
-/

namespace Raspen

open KvStoreOps Raspen.Transition

variable {S : Type}

namespace Message

/-- A CHECKPOINT for `(round, logIdx)` that carries `logHash`. -/
def isCheckpointFor (round logIdx : UInt64) (logHash : Hash) : Message → Bool
  | checkpoint _ r li lh => r == round && li == logIdx && lh == logHash
  | _ => false

theorem isCheckpointFor_iff {round logIdx : UInt64} {logHash : Hash} {msg : Message} :
    msg.isCheckpointFor round logIdx logHash = true ↔
      ∃ sender, msg = checkpoint sender round logIdx logHash := by
  cases msg <;> simp [isCheckpointFor, and_assoc]

end Message

theorem Message.exists_sender_of_isCheckpointAt {round logIdx : UInt64} {msg : Message}
    (matched : msg.isCheckpointAt round logIdx = true) : ∃ node, msg.sender = some node := by
  cases msg <;> simp_all [Message.isCheckpointAt, Message.sender]

/-- The checkpoint index a cue starts to align from. -/
def Cue.aligned : Cue → Option UInt64
  | .enterAlign chkptIdx => some chkptIdx
  | _ => none

theorem canEnterAlign_eq_some_iff {replica : Replica S} {chkptIdx : UInt64} :
    canEnterAlign replica = some chkptIdx ↔
      replica.phase = .speculative ∧ chkptIdx = replica.chkptIdx ∧
        replica.config.fPlus1 ≤
          (replica.chkptMsgs.filter (·.isCheckpointAt replica.round chkptIdx)).card := by
  unfold canEnterAlign
  by_cases speculative : replica.phase = .speculative
  · simp only [speculative, ne_eq, not_true_eq_false, if_false, Option.ite_none_right_eq_some,
      Option.some.injEq, true_and]
    constructor
    · rintro ⟨counted, rfl⟩
      exact ⟨rfl, counted⟩
    · rintro ⟨rfl, counted⟩
      exact ⟨counted, rfl⟩
  · simp [speculative]

variable [KvStoreOps S] {config : Config} {nodeId : NodeId} {kvStore : S} {history : History S}

/-! ## The evidence for entering -/

/-- The senders of the CHECKPOINTs for the replica's round and checkpoint index. -/
def Replica.checkpointSenders (replica : Replica S) : Finset NodeId :=
  senders (Message.isCheckpointAt replica.round replica.chkptIdx) replica.chkptMsgs

/-- No sender has two CHECKPOINTs stored for the replica's round and checkpoint index. -/
def Replica.CheckpointsOnce (replica : Replica S) : Prop :=
  OnePerSender (Message.isCheckpointAt replica.round replica.chkptIdx) replica.chkptMsgs

instance (replica : Replica S) : Decidable replica.CheckpointsOnce :=
  inferInstanceAs (Decidable (OnePerSender _ _))

/-- Behind an entry is the open guard. -/
theorem canEnterAlign_of_aligned {call : Call S} {firing : Replica S × Cue}
    (fires : firing ∈ call.cues) {chkptIdx : UInt64}
    (entered : firing.2.aligned = some chkptIdx) : canEnterAlign firing.1 = some chkptIdx := by
  have guard := Call.guard_of_mem_cues fires
  cases cue : firing.2 with
  | enterAlign heard =>
      rw [cue] at guard entered
      cases entered
      exact guard
  | _ => simp [cue, Cue.aligned] at entered

/-- Only one handler enters alignment. -/
theorem outside_of_perform {replica next : Replica S} {cue : Cue} {effects : List Effect}
    (outside : replica.phase ≠ .aligning) (other : cue.aligned = none)
    (performs : perform replica cue = some (next, effects)) : next.phase ≠ .aligning := by
  cases cue with
  | speculate logIdx =>
      rcases handleSpeculate_eq_some performs with ⟨_, _, _, _, _, _, rfl, _⟩
      exact outside
  | enterAlign chkptIdx => contradiction
  | stateReply chkptIdx =>
      rcases handleStateReply_eq_some performs with ⟨_, _, _, _, rfl, _⟩
      simp
  | applyRepair historyHash =>
      rcases handleApplyRepair_eq_some performs with ⟨_, _, _, _, rfl, _⟩
      simp
  | repairDoneCatchup round =>
      rcases perform_repairDoneCatchup_eq_some performs with ⟨_, _, rfl, _⟩
      simp
  | viewChange newView =>
      rcases perform_viewChange_eq_some performs with ⟨view, _, rfl, _⟩
      exact outside
  | _ =>
      cases performs
      first
        | exact outside
        | simp

/-- A call that ends in alignment has entered it, unless the replica was aligning
already. -/
theorem exists_enterAlign (run : LocalRun config nodeId kvStore history) {call : Call S}
    (callMem : call ∈ history.calls) (outside : call.pre.phase ≠ .aligning)
    (inside : call.post.phase = .aligning) :
    ∃ firing ∈ call.cues, firing.2.aligned.isSome = true := by
  by_contra noEntry
  have entries : ∀ firing ∈ call.cues, firing.2.aligned = none := by
    intro firing fires
    by_contra entered
    exact noEntry ⟨firing, fires, Option.isSome_iff_ne_none.mpr entered⟩
  have stays := @call_invariant S _ (fun replica _ => replica.phase ≠ .aligning) call
    (fun _ cue => cue.aligned = none) [] ?_ ?_ entries outside (run.step_of_mem_calls callMem)
  · exact stays inside
  · intro replica _ msg outside
    rw [Replica.store_phase]
    exact outside
  · intro _ replica cue next effects _ outside other _ performs
    exact outside_of_perform outside other performs

/-- A call that leads into alignment has entered it, always from Speculative and for the
replica's own checkpoint index, and, where each sender counts once, on CHECKPOINTs of f+1
senders, one of them outside any smaller set.  Their hashes are not compared. -/
theorem align_evidence (run : LocalRun config nodeId kvStore history) {call : Call S}
    (callMem : call ∈ history.calls) :
    (call.pre.phase ≠ .aligning → call.post.phase = .aligning →
        ∃ firing ∈ call.cues, firing.2.aligned.isSome = true) ∧
      ∀ firing ∈ call.cues, ∀ chkptIdx, firing.2.aligned = some chkptIdx →
        firing.1.phase = .speculative ∧ chkptIdx = firing.1.chkptIdx ∧
          (firing.1.CheckpointsOnce → config.fPlus1 ≤ firing.1.checkpointSenders.card ∧
            ∀ faulty : Finset NodeId, faulty.card < config.fPlus1 →
              ∃ sender ∈ firing.1.checkpointSenders, sender ∉ faulty) := by
  constructor
  · exact exists_enterAlign run callMem
  · intro firing fires chkptIdx entered
    have config_eq := config_of_visits run (.inr ⟨call, callMem, firing.2, fires⟩)
    obtain ⟨speculative, rfl, counted⟩ :=
      canEnterAlign_eq_some_iff.mp (canEnterAlign_of_aligned fires entered)
    constructor
    · exact speculative
    constructor
    · rfl
    · intro once
      rw [← config_eq]
      exact once.senders_of_count (fun _ => Message.exists_sender_of_isCheckpointAt) counted

/-! ## Agreement taken for divergence -/

/-- The replica's own digest at an index: the recorded one at its checkpoint, that of its
log elsewhere. -/
def Replica.ownHash (replica : Replica S) (logIdx : UInt64) : Option Hash :=
  if logIdx = replica.chkptIdx then some replica.chkptHash
  else (hashAt replica.kvStore logIdx).toOption

/-- f+1 replicas of the round report a digest that is not the replica's own. -/
def Replica.Diverged (replica : Replica S) : Prop :=
  ∃ logIdx logHash, replica.config.fPlus1 ≤
      (senders (Message.isCheckpointFor replica.round logIdx logHash) replica.chkptMsgs).card ∧
    replica.ownHash logIdx ≠ some logHash

section Agreeing

attribute [local instance] plainHasher

/-- A replica hears two CHECKPOINTs for its own checkpoint index. -/
def checkpointInputs (first second : Hash) : List Input :=
  [.message .greatest (.checkpoint "r0" 0 0 first),
    .message .greatest (.checkpoint "r2" 0 0 second)]

/-- Both name the digest that the replica has recorded itself. -/
def agreeingHistory : History MemKvStore :=
  (execute History.next (History.start (Config.forTest 4 1 0) "r1" MemKvStore.new)
    (checkpointInputs Hash.zero Hash.zero)).get (by decide +kernel)

theorem localRun_agreeingHistory :
    LocalRun (Config.forTest 4 1 0) "r1" MemKvStore.new agreeingHistory :=
  reachable_of_execute (Option.some_get _).symm

theorem exists_entry_agreeingHistory :
    ∃ call ∈ agreeingHistory.calls, ∃ firing ∈ call.cues,
      firing.2.aligned.isSome = true ∧ ¬firing.1.Diverged := by
  have agreed : ∃ call ∈ agreeingHistory.calls, ∃ firing ∈ call.cues,
      firing.2.aligned.isSome = true ∧ firing.1.config.fPlus1 = 2 ∧
      firing.1.round = 0 ∧ firing.1.ownHash 0 = some Hash.zero ∧
      ∀ msg ∈ firing.1.chkptMsgs, msg.isCheckpointFor 0 0 Hash.zero = true := by
    decide +kernel
  rcases agreed with ⟨call, callMem, firing, fires, entered, bound, round_eq, own, agree⟩
  refine ⟨call, callMem, firing, fires, entered, ?_⟩
  rintro ⟨logIdx, logHash, quorum, different⟩
  rw [bound, round_eq] at quorum
  obtain ⟨sender, senderMem⟩ := Finset.card_pos.mp (Nat.zero_lt_two.trans_le quorum)
  rcases mem_senders_iff.mp senderMem with ⟨msg, stored, matched, _⟩
  obtain ⟨_, rfl⟩ := Message.isCheckpointFor_iff.mp matched
  obtain ⟨_, same⟩ := Message.isCheckpointFor_iff.mp (agree _ stored)
  cases same
  exact different own

/-- Each names another digest, and neither the replica's. -/
def disagreeingHistory : History MemKvStore :=
  (execute History.next (History.start (Config.forTest 4 1 0) "r1" MemKvStore.new)
    (checkpointInputs (Hash.fill 1) (Hash.fill 2))).get (by decide +kernel)

theorem localRun_disagreeingHistory :
    LocalRun (Config.forTest 4 1 0) "r1" MemKvStore.new disagreeingHistory :=
  reachable_of_execute (Option.some_get _).symm

theorem exists_entry_disagreeingHistory :
    ∃ call ∈ disagreeingHistory.calls, ∃ firing ∈ call.cues, firing.2.aligned.isSome = true ∧
      ∀ logIdx logHash, (senders (Message.isCheckpointFor firing.1.round logIdx logHash)
        firing.1.chkptMsgs).card < firing.1.config.fPlus1 := by
  have disagreed : ∃ call ∈ disagreeingHistory.calls, ∃ firing ∈ call.cues,
      firing.2.aligned.isSome = true ∧ firing.1.config.fPlus1 = 2 ∧
      ∀ msg ∈ firing.1.chkptMsgs, msg = .checkpoint "r0" 0 0 (Hash.fill 1) ∨
        msg = .checkpoint "r2" 0 0 (Hash.fill 2) := by
    decide +kernel
  rcases disagreed with ⟨call, callMem, firing, fires, entered, bound, heard⟩
  refine ⟨call, callMem, firing, fires, entered, ?_⟩
  intro logIdx logHash
  rw [bound]
  apply Nat.lt_succ_of_le
  apply (card_senders_le _ _).trans
  apply Finset.card_le_one.mpr
  intro msg msgMem other otherMem
  obtain ⟨stored, matched⟩ := Finset.mem_filter.mp msgMem
  obtain ⟨otherStored, otherMatched⟩ := Finset.mem_filter.mp otherMem
  obtain ⟨sender, isMsg⟩ := Message.isCheckpointFor_iff.mp matched
  obtain ⟨otherSender, isOther⟩ := Message.isCheckpointFor_iff.mp otherMatched
  have differ : Hash.fill 1 ≠ Hash.fill 2 := by
    decide
  rcases heard msg stored with rfl | rfl <;> rcases heard other otherStored with rfl | rfl
  · rfl
  · have first := (Message.checkpoint.inj isMsg).2.2.2
    have second := (Message.checkpoint.inj isOther).2.2.2
    exact absurd (first.trans second.symm) differ
  · have second := (Message.checkpoint.inj isMsg).2.2.2
    have first := (Message.checkpoint.inj isOther).2.2.2
    exact absurd (first.trans second.symm) differ
  · rfl

/-- A replica goes into state transfer on CHECKPOINTs that agree with its own, and on
CHECKPOINTs that do not agree with one another. -/
theorem align_without_divergence :
    (∃ call ∈ agreeingHistory.calls, ∃ firing ∈ call.cues,
      firing.2.aligned.isSome = true ∧ ¬firing.1.Diverged) ∧
    (LocalRun (Config.forTest 4 1 0) "r1" MemKvStore.new disagreeingHistory ∧
      ∃ call ∈ disagreeingHistory.calls, ∃ firing ∈ call.cues, firing.2.aligned.isSome = true ∧
        ∀ logIdx logHash, (senders (Message.isCheckpointFor firing.1.round logIdx logHash)
          firing.1.chkptMsgs).card < firing.1.config.fPlus1) ∧
    ¬∀ history : History MemKvStore,
      LocalRun (Config.forTest 4 1 0) "r1" MemKvStore.new history →
      ∀ call ∈ history.calls, ∀ firing ∈ call.cues, firing.2.aligned.isSome = true →
        firing.1.phase = .speculative ∧ firing.1.Diverged := by
  constructor
  · exact exists_entry_agreeingHistory
  constructor
  · exact ⟨localRun_disagreeingHistory, exists_entry_disagreeingHistory⟩
  · intro sound
    rcases exists_entry_agreeingHistory with ⟨call, callMem, firing, fires, entered, agrees⟩
    exact agrees
      (sound agreeingHistory localRun_agreeingHistory call callMem firing fires entered).2

/-- Both name another digest. -/
def divergedHistory : History MemKvStore :=
  (execute History.next (History.start (Config.forTest 4 1 0) "r1" MemKvStore.new)
    (checkpointInputs (Hash.fill 1) (Hash.fill 1))).get (by decide +kernel)

theorem localRun_divergedHistory :
    LocalRun (Config.forTest 4 1 0) "r1" MemKvStore.new divergedHistory :=
  reachable_of_execute (Option.some_get _).symm

theorem align_evidence_diverged :
    ∃ call ∈ divergedHistory.calls, ∃ firing ∈ call.cues, firing.2.aligned = some 0 ∧
      (Config.forTest 4 1 0).fPlus1 ≤ firing.1.checkpointSenders.card := by
  have entered : ∃ call ∈ divergedHistory.calls, ∃ firing ∈ call.cues,
      firing.2.aligned = some 0 ∧ firing.1.CheckpointsOnce := by
    decide +kernel
  rcases entered with ⟨call, callMem, firing, fires, enters, once⟩
  have evidence := (align_evidence localRun_divergedHistory callMem).2 firing fires 0 enters
  exact ⟨call, callMem, firing, fires, enters, (evidence.2.2 once).1⟩

end Agreeing

/-! ## After a transfer -/

/-- The replica has left round `round`, or is still in it with a log and a checkpoint that
reach `chkptIdx` and the CHECKPOINTs `msgs`, and not aligning. -/
structure Transferred (config : Config) (msgs : Finset Message) (round chkptIdx : UInt64)
    (replica : Replica S) : Prop where
  config : replica.config = config
  msgs : replica.chkptMsgs = msgs
  progress : round < replica.round ∨
    (replica.round = round ∧ replica.phase ≠ .aligning ∧ chkptIdx ≤ replica.chkptIdx ∧
      chkptIdx < replica.kvSize)

/-- Fewer than f+1 of the CHECKPOINTs report an index from `chkptIdx` on. -/
def NoEvidence (config : Config) (msgs : Finset Message) (round chkptIdx : UInt64) : Prop :=
  ∀ k ≥ chkptIdx, (msgs.filter (·.isCheckpointAt round k)).card < config.fPlus1

namespace Transferred

variable {msgs : Finset Message} {round chkptIdx : UInt64} {replica next : Replica S}

omit [KvStoreOps S] in
theorem of_same (transferred : Transferred config msgs round chkptIdx replica)
    (config_eq : next.config = replica.config) (msgs_eq : next.chkptMsgs = replica.chkptMsgs)
    (round_eq : next.round = replica.round)
    (outside : replica.phase ≠ .aligning → next.phase ≠ .aligning)
    (idx_eq : next.chkptIdx = replica.chkptIdx) (size_le : replica.kvSize ≤ next.kvSize) :
    Transferred config msgs round chkptIdx next where
  config := config_eq.trans transferred.config
  msgs := msgs_eq.trans transferred.msgs
  progress := by
    rw [round_eq, idx_eq]
    rcases transferred.progress with later | ⟨same, settled, reached, inside⟩
    · exact .inl later
    · exact .inr ⟨same, outside settled, reached, UInt64.lt_of_lt_of_le inside size_le⟩

omit [KvStoreOps S] in
theorem of_round_lt (transferred : Transferred config msgs round chkptIdx replica)
    (advanced : replica.round < next.round) (config_eq : next.config = replica.config)
    (msgs_eq : next.chkptMsgs = replica.chkptMsgs) :
    Transferred config msgs round chkptIdx next where
  config := config_eq.trans transferred.config
  msgs := msgs_eq.trans transferred.msgs
  progress := by
    rcases transferred.progress with later | ⟨same, _⟩
    · exact .inl (UInt64.lt_trans later advanced)
    · exact .inl (same ▸ advanced)

omit [KvStoreOps S] in
theorem store (transferred : Transferred config msgs round chkptIdx replica) {msg : Message}
    (other : msg.isCheckpoint = false) :
    Transferred config msgs round chkptIdx (replica.store msg) := by
  apply transferred.of_same <;> simp [Replica.store_chkptMsgs, other]

/-- State transfer writes a checkpoint and a log that reaches it. -/
theorem of_reply (config_eq : replica.config = config) {effects : List Effect}
    (handled : handleStateReply replica chkptIdx = some (next, effects)) :
    Transferred config replica.chkptMsgs replica.round chkptIdx next := by
  rcases handleStateReply_eq_some handled with ⟨_, _, _, grown, rfl, _⟩
  constructor
  · exact config_eq
  · rfl
  · exact .inr ⟨rfl, by simp, UInt64.le_refl _, lt_of_addU64_one grown⟩

/-- Without evidence no handler aligns the replica in its round. -/
theorem of_perform (few : NoEvidence config msgs round chkptIdx)
    (transferred : Transferred config msgs round chkptIdx replica) {input : Input} {cue : Cue}
    {effects : List Effect} (guard : Guard input replica cue)
    (performs : perform replica cue = some (next, effects)) :
    Transferred config msgs round chkptIdx next := by
  cases cue with
  | speculate logIdx =>
      rcases handleSpeculate_eq_some performs with ⟨_, kvSize, _, _, _, grown, rfl, _⟩
      refine transferred.of_same rfl rfl rfl id rfl ?_
      rw [UInt64.le_iff_toNat_le, toNat_of_addU64 grown]
      exact Nat.le_succ _
  | formCheckpoint logIdx =>
      obtain ⟨speculative, _, rfl, _⟩ := canFormCheckpoint_eq_some_iff.mp guard
      cases performs
      refine ⟨transferred.config, transferred.msgs, ?_⟩
      rcases transferred.progress with later | ⟨same, _, _, inside⟩
      · exact .inl later
      · right
        refine ⟨same, by simp [speculative], ?_, inside⟩
        have positive := UInt64.lt_of_le_of_lt UInt64.zero_le inside
        have below := UInt64.lt_iff_toNat_lt.mp inside
        rw [UInt64.le_iff_toNat_le, (toNat_sub_one positive).2]
        omega
  | enterAlign heard =>
      obtain ⟨_, rfl, counted⟩ := canEnterAlign_eq_some_iff.mp guard
      cases performs
      refine ⟨transferred.config, transferred.msgs, ?_⟩
      rcases transferred.progress with later | ⟨same, _, reached, _⟩
      · exact .inl later
      · rw [transferred.config, transferred.msgs, same] at counted
        exact absurd counted (Nat.not_le.mpr (few _ reached))
  | stateReply heard =>
      rcases guard with ⟨_, msg, _, guard⟩
      have aligning := (canStateReply_eq_some_iff.mp guard).1
      rcases handleStateReply_eq_some performs with ⟨_, _, _, _, rfl, _⟩
      refine ⟨transferred.config, transferred.msgs, ?_⟩
      rcases transferred.progress with later | ⟨_, outside, _⟩
      · exact .inl later
      · exact absurd aligning outside
  | applyRepair historyHash =>
      rcases handleApplyRepair_eq_some performs with ⟨_, _, advanced, _, rfl, _⟩
      exact transferred.of_round_lt (lt_of_addU64_one advanced) rfl rfl
  | repairDoneCatchup oldRound =>
      rcases perform_repairDoneCatchup_eq_some performs with ⟨_, advanced, rfl, _⟩
      exact transferred.of_round_lt (lt_of_addU64_one advanced) rfl rfl
  | viewChange newView =>
      rcases perform_viewChange_eq_some performs with ⟨view, _, rfl, _⟩
      exact transferred.of_same rfl rfl rfl id rfl (UInt64.le_refl _)
  | _ =>
      cases performs
      apply transferred.of_same <;> simp

end Transferred

section Reply

variable {order : HashOrder} {sender : NodeId} {chkptIdx : UInt64} {chkptHash : Hash}

/-- While aligning, a STATE-REPLY runs its own handler and no other. -/
theorem processMessage_stateReply {replica : Replica S} (aligning : replica.phase = .aligning) :
    processMessage order replica (.stateReply sender chkptIdx chkptHash) =
      handleStateReply replica chkptIdx := by
  have before : ∀ stage ∈ (normalStages (.stateReply sender chkptIdx chkptHash)).take 8,
      stage.store replica = replica ∧ stage.listen replica = none := by
    simp only [normalStages, List.take_succ_cons, List.take_zero, List.forall_mem_cons,
      List.not_mem_nil, false_implies, implies_true, and_true, Stage.guard, onReceiveSync,
      onReceiveCheckpoint, onReceiveTimeout, Option.map_eq_none_iff]
    simp [Replica.storeIf, Message.isSync, Message.isCheckpoint, Message.isTimeoutMsg,
      canSpeculate, canSendSyncThreshold, canFormCheckpoint, canEnterAlign, canConflictProof,
      canTimeoutProof, canEnterRepair, canStateRequest, aligning]
  have raises : ((.guard fun replica => (canStateReply replica
      (.stateReply sender chkptIdx chkptHash)).map .stateReply) : ReplicaStage S).listen replica =
        some (.stateReply chkptIdx) :=
    congrArg (Option.map Cue.stateReply)
      (canStateReply_eq_some_iff.mpr ⟨aligning, sender, chkptHash, rfl⟩)
  have split : normalStages (S := S) (.stateReply sender chkptIdx chkptHash) =
      (normalStages (.stateReply sender chkptIdx chkptHash)).take 8 ++
        [.guard fun replica => (canStateReply replica
          (.stateReply sender chkptIdx chkptHash)).map .stateReply] := rfl
  rw [processMessage, split, List.append_assoc, runStages_append, runStages_of_silent before,
    Option.bind_some, List.singleton_append]
  cases handled : handleStateReply replica chkptIdx with
  | none =>
      have fails : perform replica (.stateReply chkptIdx) = none := handled
      simp only [runStages_cons_of_failed rfl raises fails, Option.map_none]
  | some outcome =>
      rcases handleStateReply_eq_some handled with ⟨_, _, _, _, moved, _⟩
      have outside : outcome.1.phase.isRepair = false := by simp [moved, Phase.isRepair]
      obtain ⟨history, prepare, commit, apply, catchup⟩ := repair_silent outside
      have after : ∀ stage ∈ voteStages order (.stateReply sender chkptIdx chkptHash) ++
          exitStages (.stateReply sender chkptIdx chkptHash),
          stage.store outcome.1 = outcome.1 ∧ stage.listen outcome.1 = none := by
        simp only [voteStages, exitStages, List.cons_append, List.nil_append,
          List.forall_mem_cons, List.not_mem_nil, false_implies, implies_true, and_true,
          onReceiveLogMsg, onReceiveRepairHistory, onReceiveRepairPrepare, onReceiveRepairCommit,
          onReceiveRepairDone, Option.map_eq_none_iff]
        simp [Replica.storeIf, Message.isLogMsg, Message.isRepairHistory, Message.isRepairPrepare,
          Message.isRepairCommit, Message.isRepairDone, history, prepare, commit, apply, catchup]
      have performs : perform replica (.stateReply chkptIdx) = some outcome := handled
      simp [runStages_cons_of_heard rfl raises performs, runStages_of_silent after]

/-- After a transfer without further evidence, no inputs but CHECKPOINTs align the replica
in its round again. -/
theorem alignment_progress (run : LocalRun config nodeId kvStore history)
    (aligning : history.replica.phase = .aligning)
    (few : NoEvidence config history.replica.chkptMsgs history.replica.round chkptIdx)
    {settled : History S}
    (replied : history.next (.message order (.stateReply sender chkptIdx chkptHash)) =
      some settled) {inputs : List Input}
    (quiet : ∀ input ∈ inputs, ∀ msg ∈ input.delivered, msg.isCheckpoint = false)
    {later : History S} (runs : execute History.next settled inputs = some later) :
    settled.replica.phase = .speculative ∧
      (later.replica.round = settled.replica.round → later.replica.phase ≠ .aligning) ∧
      ∃ served, later.calls = settled.calls ++ served ∧
        ∀ call ∈ served, ∀ firing ∈ call.cues, firing.2.aligned.isSome = true →
          settled.replica.round < firing.1.round := by
  rcases History.next_eq_some_iff.mp replied with ⟨post, effects, steps, rfl⟩
  have handled : handleStateReply history.replica chkptIdx = some (post, effects) :=
    (processMessage_stateReply aligning).symm.trans steps
  have landed := Transferred.of_reply (config_of_localRun run) handled
  have stays : ∀ input ∈ inputs, Preserves perform (input.stages (S := S)) (fun _ _ => True)
      (Transferred config history.replica.chkptMsgs history.replica.round chkptIdx) := by
    intro input inputMem
    apply preserves_stages
    · intro replica msg delivered transferred
      exact transferred.store (quiet input inputMem msg delivered)
    · intro replica cue next emitted transferred _ guard performs
      exact transferred.of_perform few guard performs
  obtain ⟨final, served, calls_eq, past⟩ := History.execute_preserves stays landed runs
  rcases handleStateReply_eq_some handled with ⟨_, _, _, _, rfl, _⟩
  refine ⟨rfl, ?_, served, calls_eq, ?_⟩
  · intro sameRound
    rcases final.progress with advanced | ⟨_, outside, _⟩
    · exact absurd sameRound.symm (UInt64.ne_of_lt advanced)
    · exact outside
  · intro call callMem firing fires entered
    obtain ⟨heard, entered⟩ := Option.isSome_iff_exists.mp entered
    obtain ⟨_, rfl, counted⟩ :=
      canEnterAlign_eq_some_iff.mp (canEnterAlign_of_aligned fires entered)
    have transferred := past call callMem firing fires
    rcases transferred.progress with advanced | ⟨same, _, reached, _⟩
    · exact advanced
    · rw [transferred.config, transferred.msgs, same] at counted
      exact absurd counted (Nat.not_le.mpr (few _ reached))

/-- With evidence at the transferred index the next SPEC-REPLY aligns the replica again. -/
theorem realigns_of_evidence {replica settled : Replica S} {effects : List Effect}
    (handled : handleStateReply replica chkptIdx = some (settled, effects))
    (evidence : replica.config.fPlus1 ≤
      (replica.chkptMsgs.filter (·.isCheckpointAt replica.round chkptIdx)).card)
    (round logIdx : UInt64) (logHash : Hash) :
    ∃ post emitted, processMessage order settled (.specReply sender round logIdx logHash) =
      some (post, emitted) ∧ post.phase = .aligning := by
  rcases handleStateReply_eq_some handled with ⟨_, kvSize, _, grown, settled_eq, _⟩
  have top : kvSize - 1 = chkptIdx := by
    rw [addU64_eq grown, UInt64.add_sub_cancel]
  -- a checkpoint formed on the way is the transferred one
  have enters : canEnterAlign (checkpointed settled) = some chkptIdx := by
    unfold checkpointed
    cases forms : canFormCheckpoint settled with
    | none =>
        apply canEnterAlign_eq_some_iff.mpr
        rw [settled_eq]
        exact ⟨rfl, rfl, evidence⟩
    | some formed =>
        obtain ⟨_, _, rfl, _⟩ := canFormCheckpoint_eq_some_iff.mp forms
        apply canEnterAlign_eq_some_iff.mpr
        rw [settled_eq]
        exact ⟨rfl, top.symm, evidence⟩
  obtain ⟨first, forms, _⟩ := runStages_checkpointStages settled
  have front : runStages perform frontStages settled = some
      ({ checkpointed settled with phase := .aligning },
        first ++ [.broadcast (.stateRequest (checkpointed settled).nodeId chkptIdx)]) := by
    rw [frontStages, runStages_append, forms, Option.bind_some, runStages_of_aligns enters]
    rfl
  have ends : processMessage order settled (.specReply sender round logIdx logHash) = some
      ({ checkpointed settled with phase := .aligning },
        first ++ [.broadcast (.stateRequest (checkpointed settled).nodeId chkptIdx)]) := by
    rw [processMessage_specReply, runStages_append, front, Option.bind_some,
      followStages_specReply rfl]
    simp
  exact ⟨_, _, ends, rfl⟩

end Reply

section Diverged

attribute [local instance] plainHasher

/-- A Byzantine reply to the diverged replica. -/
def transferInput (chkptIdx : UInt64) : Input :=
  .message .greatest (.stateReply "r0" chkptIdx (Hash.fill 1))

/-- What keeps arriving afterwards. -/
def trailingInputs : List Input :=
  [.message .greatest (.specReply "r2" 0 0 Hash.zero),
    .message .greatest (.speculate "seq" 0 Hash.zero 0)]

/-- The reply transfers the index the replica had. -/
def unmovedHistory : History MemKvStore :=
  (divergedHistory.next (transferInput 0)).get (by decide +kernel)

def realignedHistory : History MemKvStore :=
  (execute History.next unmovedHistory trailingInputs).get (by decide +kernel)

/-- The evidence for the first alignment brings about the second one. -/
theorem alignment_repeats :
    ¬∀ history : History MemKvStore,
      LocalRun (Config.forTest 4 1 0) "r1" MemKvStore.new history →
      history.replica.phase = .aligning → ∀ order sender chkptIdx chkptHash settled,
      history.next (.message order (.stateReply sender chkptIdx chkptHash)) = some settled →
      settled.replica.phase = .speculative → ∀ inputs : List Input,
      (∀ input ∈ inputs, ∀ msg ∈ input.delivered, msg.isCheckpoint = false ∧
        ∀ sender chkptIdx chkptHash, msg ≠ .stateReply sender chkptIdx chkptHash) →
      ∀ later, execute History.next settled inputs = some later →
      later.replica.round = settled.replica.round → later.replica.phase ≠ .aligning := by
  intro progress
  have quiet : ∀ input ∈ trailingInputs, ∀ msg ∈ input.delivered, msg.isCheckpoint = false ∧
      ∀ sender chkptIdx chkptHash, msg ≠ .stateReply sender chkptIdx chkptHash := by
    simp [trailingInputs, Input.delivered, Message.isCheckpoint]
  have outside := progress divergedHistory localRun_divergedHistory (by decide +kernel)
    .greatest "r0" 0 (Hash.fill 1) unmovedHistory (Option.some_get _).symm (by decide +kernel)
    trailingInputs quiet realignedHistory (Option.some_get _).symm (by decide +kernel)
  have aligning : realignedHistory.replica.phase = .aligning := by
    decide +kernel
  exact outside aligning

/-- The reply transfers a higher index. -/
def movedHistory : History MemKvStore :=
  (divergedHistory.next (transferInput 1)).get (by decide +kernel)

def resumedHistory : History MemKvStore :=
  (execute History.next movedHistory trailingInputs).get (by decide +kernel)

/-- The stored CHECKPOINTs are no evidence against the higher index. -/
theorem noEvidence_divergedHistory :
    NoEvidence (Config.forTest 4 1 0) divergedHistory.replica.chkptMsgs
      divergedHistory.replica.round 1 := by
  intro k above
  have reported : ∀ msg ∈ divergedHistory.replica.chkptMsgs,
      msg.isCheckpointFor 0 0 (Hash.fill 1) = true := by
    decide +kernel
  have none : divergedHistory.replica.chkptMsgs.filter
      (·.isCheckpointAt divergedHistory.replica.round k) = ∅ := by
    apply Finset.filter_eq_empty_iff.mpr
    intro msg stored matched
    obtain ⟨_, rfl⟩ := Message.isCheckpointFor_iff.mp (reported msg stored)
    simp only [Message.isCheckpointAt, Bool.and_eq_true, beq_iff_eq] at matched
    rw [← matched.2] at above
    contradiction
  rw [none]
  decide

theorem alignment_progress_resumed :
    movedHistory.replica.phase = .speculative ∧
      (resumedHistory.replica.round = movedHistory.replica.round →
        resumedHistory.replica.phase ≠ .aligning) ∧
      ∃ served, resumedHistory.calls = movedHistory.calls ++ served ∧
        ∀ call ∈ served, ∀ firing ∈ call.cues, firing.2.aligned.isSome = true →
          movedHistory.replica.round < firing.1.round :=
  alignment_progress localRun_divergedHistory (by decide +kernel) noEvidence_divergedHistory
    (Option.some_get _).symm (by simp [trailingInputs, Input.delivered, Message.isCheckpoint])
    (Option.some_get _).symm

end Diverged

end Raspen
