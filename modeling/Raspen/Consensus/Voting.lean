import Raspen.Consensus.Emission
import Raspen.Consensus.Inbox

/-!
# Votes for a proposed history

The vote guard is evaluated again on every message while a replica waits in
PreparePhase, and it reads an unordered set.  A replica therefore votes for one
history in each view and round as long as the set it reads there proposes one.
-/

namespace Raspen

open Raspen.Transition

variable {S : Type}

/-- What a REPAIR-PREPARE votes for in its view and round. -/
def prepareVote (effect : Effect) : Option ((UInt64 × UInt64) × UInt64) :=
  match effect.message with
  | .repairPrepare _ view round historyHash => some ((view, round), historyHash)
  | _ => none

theorem prepareVote_eq_some_iff {effect : Effect} {view round historyHash : UInt64} :
    prepareVote effect = some ((view, round), historyHash) ↔
      ∃ sender, effect.message = .repairPrepare sender view round historyHash := by
  unfold prepareVote
  cases effect.message <;> simp [and_assoc]

/-- A call that finds its replica in PreparePhase sees at most one proposed
history for the current view and round, the delivered message included. -/
def Call.SingleProposal (call : Call S) : Prop :=
  ∀ msg ∈ call.input.delivered, call.pre.phase = .preparePhase →
    (foundValues (insert msg call.pre.repairHistoryMsgs)
      (historyFor call.pre.view call.pre.round)).card ≤ 1

instance (call : Call S) : Decidable call.SingleProposal :=
  inferInstanceAs (Decidable (∀ msg ∈ call.input.delivered, _))

/-- A stage that never listens for a vote. -/
def SilentStage (stage : ReplicaStage S) : Prop :=
  ∀ replica cue, stage.listen replica = some cue → ∀ historyHash, cue ≠ .repairPrepare historyHash

variable [KvStoreOps S]

/-! ## Silent moves -/

/-- Only the vote handler emits a vote. -/
theorem prepareVote_of_perform {replica next : Replica S} {cue : Cue} {effects : List Effect}
    (other : ∀ historyHash, cue ≠ .repairPrepare historyHash)
    (performs : perform replica cue = some (next, effects)) :
    ∀ effect ∈ effects, prepareVote effect = none := by
  intro effect effectMem
  have emits := emits_of_perform performs effect effectMem
  unfold prepareVote
  cases message : effect.message with
  | repairPrepare sender view round historyHash =>
      rw [message] at emits
      cases cue with
      | repairPrepare historyHash' => exact absurd rfl (other historyHash')
      | _ => contradiction
  | _ => rfl

/-- A move that casts no vote. -/
structure SilentMove (input : Input) (replica next : Replica S) (effects : List Effect) :
    Prop where
  move : Move input replica next effects
  silent : ∀ effect ∈ effects, prepareVote effect = none

theorem silentMoves_of_runStages {input : Input} {stages : List (ReplicaStage S)}
    (sub : stages ⊆ input.stages) (silent : ∀ stage ∈ stages, SilentStage stage)
    {replica next : Replica S} {effects : List Effect}
    (run : runStages perform stages replica = some (next, effects)) :
    Chain (SilentMove input) replica next effects := by
  have isSilent : ∀ {state final : Replica S} {emitted : List Effect},
      StageMove perform stages state final emitted → SilentMove input state final emitted := by
    intro state final emitted move
    refine ⟨.of_stageMove sub move, ?_⟩
    cases move with
    | store _ => simp
    | perform stageMem listens performs =>
        exact prepareVote_of_perform (silent _ stageMem _ _ listens) performs
  exact (chain_of_runStages run).mono isSilent

/-- The blocks that run before the vote. -/
def stagesBeforeVote (msg : Message) : List (ReplicaStage S) :=
  normalStages msg ++ [onReceiveLogMsg msg]

/-- The blocks that run after the vote. -/
def stagesAfterVote (msg : Message) : List (ReplicaStage S) :=
  onReceiveRepairPrepare msg :: exitStages msg

/-- A message call evaluates the vote guard exactly once. -/
theorem messageStages_eq (order : HashOrder) (msg : Message) :
    (Input.message order msg).stages = stagesBeforeVote (S := S) msg ++
      (onReceiveRepairHistory order msg :: stagesAfterVote msg) :=
  rfl

theorem silent_stagesBeforeVote (msg : Message) :
    ∀ stage ∈ stagesBeforeVote (S := S) msg, SilentStage stage := by
  rintro stage stageMem replica cue listens historyHash rfl
  rcases List.mem_append.mp stageMem with normal | log
  · have isNormal := isNormal_of_listen normal listens
    contradiction
  · rw [List.mem_singleton.mp log] at listens
    rcases Option.map_eq_some_iff.mp listens with ⟨value, _, same⟩
    contradiction

theorem silent_stagesAfterVote (msg : Message) :
    ∀ stage ∈ stagesAfterVote (S := S) msg, SilentStage stage := by
  rintro stage stageMem replica cue listens historyHash rfl
  rcases List.mem_cons.mp stageMem with rfl | exit
  · rcases Option.map_eq_some_iff.mp listens with ⟨value, _, same⟩
    contradiction
  · have isExit := isExit_of_listen exit listens
    contradiction

omit [KvStoreOps S] in
theorem silent_eventStages (timer : Event) :
    ∀ stage ∈ eventStages (S := S) timer, SilentStage stage := by
  rintro stage stageMem replica cue listens historyHash rfl
  have isTimer := isTimer_of_listen stageMem listens
  contradiction

/-- Silent moves only store the delivered message. -/
theorem repairHistoryMsgs_of_silentMoves {order : HashOrder} {msg : Message}
    {replica next : Replica S} {effects : List Effect}
    (moves : Chain (SilentMove (.message order msg)) replica next effects) :
    next.repairHistoryMsgs ⊆ insert msg replica.repairHistoryMsgs := by
  induction moves with
  | refl => exact Finset.subset_insert _ _
  | tail _ last ih =>
      exact (repairHistoryMsgs_of_move last.move).trans
        (Finset.insert_subset (Finset.mem_insert_self _ _) ih)

/-! ## One vote for each view and round -/

/-- The votes of the current round are for the current proposal, and a stored
REPAIR-HISTORY proposed it. -/
structure Voted (replica : Replica S) (trace : List Effect) : Prop where
  emitted : Emitted replica trace
  backed : ∀ effect ∈ trace, ∀ view historyHash,
    prepareVote effect = some ((view, replica.round), historyHash) →
    historyHash = replica.proposedHistoryHash ∧ ∃ sender,
      .repairHistory sender view replica.round historyHash ∈ replica.repairHistoryMsgs
  agree : Agree prepareVote trace

theorem voted_new (config : Config) (nodeId : NodeId) (kvStore : S) :
    Voted (Replica.new config nodeId kvStore) [] where
  emitted := emitted_new config nodeId kvStore
  backed effect effectMem := by simp at effectMem
  agree := agree_nil _

namespace Voted

variable {input : Input} {replica next : Replica S} {trace effects : List Effect}

/-- A vote of the current round was cast in the current view, and the replica
has not left the voting phases since. -/
theorem voting_of_vote (voted : Voted replica trace) {effect : Effect}
    {view historyHash : UInt64} (effectMem : effect ∈ trace)
    (votes : prepareVote effect = some ((view, replica.round), historyHash)) :
    view = replica.view ∧ (replica.phase = .preparePhase ∨ replica.phase = .commitPhase) := by
  obtain ⟨sender, isPrepare⟩ := prepareVote_eq_some_iff.mp votes
  have spent := voted.emitted.spent effect effectMem
  rw [isPrepare] at spent
  rcases spent with past | ⟨_, sameView, voting⟩
  · exact absurd past (Nat.lt_irrefl _)
  · exact ⟨sameView, voting⟩

/-- A silent move keeps every vote backed. -/
theorem backed_of_silentMove (voted : Voted replica trace)
    (move : SilentMove input replica next effects) :
    ∀ effect ∈ trace, ∀ view historyHash,
      prepareVote effect = some ((view, next.round), historyHash) →
      historyHash = next.proposedHistoryHash ∧ ∃ sender,
        .repairHistory sender view next.round historyHash ∈ next.repairHistoryMsgs := by
  intro effect effectMem view historyHash votes
  have repairMove := RepairMove.of_move move.move
  obtain ⟨sender, isPrepare⟩ := prepareVote_eq_some_iff.mp votes
  have spent := voted.emitted.spent effect effectMem
  rw [isPrepare] at spent
  have roundLe : next.round.toNat ≤ replica.round.toNat := by
    rcases spent with past | ⟨same, _⟩
    · exact Nat.le_of_lt past
    · rw [same]
  rcases progress_of_repairMove voted.emitted.consistent repairMove with finished | advances
  · exact absurd finished (Nat.not_lt.mpr roundLe)
  · rw [advances.round] at votes ⊢
    rcases voted.backed effect effectMem view historyHash votes with ⟨proposed, proposer, stored⟩
    obtain ⟨_, voting⟩ := voted.voting_of_vote effectMem votes
    have silent := move.silent
    cases repairMove with
    | quiet quiet _ =>
        exact ⟨proposed.trans quiet.proposed.symm, proposer, quiet.repairHistoryMsgs stored⟩
    | enter outside _ =>
        rw [voted.emitted.consistent.inRepair_eq] at outside
        rcases voting with preparing | committing
        · simp [preparing, Phase.isRepair] at outside
        · simp [committing, Phase.isRepair] at outside
    | propose guard => simp [(canBroadcastHistory_eq_some_iff.mp guard).1] at voting
    | vote _ _ => simp [prepareVote, Effect.message] at silent
    | lock _ => exact ⟨proposed, proposer, stored⟩
    | apply _ advanced _ | catchup _ advanced =>
        exact absurd advances.round.symm (UInt64.ne_of_lt (lt_of_addU64_one advanced))
    | changeView collecting _ => simp [collecting] at voting

theorem of_silentMove (voted : Voted replica trace)
    (move : SilentMove input replica next effects) : Voted next (trace ++ effects) where
  emitted := voted.emitted.of_repairMove (.of_move move.move)
  backed effect effectMem view historyHash votes := by
    rcases List.mem_append.mp effectMem with old | new
    · exact voted.backed_of_silentMove move effect old view historyHash votes
    · rw [move.silent effect new] at votes
      contradiction
  agree := voted.agree.append_other move.silent

theorem of_silentMoves (voted : Voted replica trace)
    (moves : Chain (SilentMove input) replica next effects) : Voted next (trace ++ effects) :=
  moves.preserves (fun voted move => voted.of_silentMove move) voted

theorem progress_of_silentMoves (voted : Voted replica trace)
    (moves : Chain (SilentMove input) replica next effects) : Progress replica next := by
  induction moves with
  | refl => exact .inr (.refl replica)
  | tail earlier last ih =>
      have consistent := (voted.of_silentMoves earlier).emitted.consistent
      exact ih.trans (progress_of_repairMove consistent (.of_move last.move))

/-- A new vote repeats the earlier votes of its round.  Such a vote was cast
before the call, so the call began in PreparePhase and saw a single proposal. -/
theorem vote_repeats {order : HashOrder} {msg : Message} (voted : Voted replica trace)
    (moves : Chain (SilentMove (.message order msg)) replica next effects)
    (single : replica.phase = .preparePhase → (foundValues
      (insert msg replica.repairHistoryMsgs) (historyFor replica.view replica.round)).card ≤ 1)
    (relevant : next.phase = .collectingLogs ∨ next.phase = .preparePhase)
    {sender : NodeId} {historyHash : UInt64}
    (stored : .repairHistory sender next.view next.round historyHash ∈ next.repairHistoryMsgs) :
    ∀ effect ∈ trace ++ effects, ∀ view historyHash',
      prepareVote effect = some ((view, next.round), historyHash') →
      view = next.view ∧ historyHash' = historyHash := by
  intro effect effectMem view historyHash' votes
  obtain ⟨viewEq, _⟩ := (voted.of_silentMoves moves).voting_of_vote effectMem votes
  have old : effect ∈ trace := by
    rcases List.mem_append.mp effectMem with old | new
    · exact old
    · rw [moves.forall_effects SilentMove.silent effect new] at votes
      contradiction
  obtain ⟨voter, isPrepare⟩ := prepareVote_eq_some_iff.mp votes
  have spent := voted.emitted.spent effect old
  rw [isPrepare] at spent
  have roundLe : next.round.toNat ≤ replica.round.toNat := by
    rcases spent with past | ⟨same, _⟩
    · exact Nat.le_of_lt past
    · rw [same]
  rcases voted.progress_of_silentMoves moves with finished | advances
  · exact absurd finished (Nat.not_lt.mpr roundLe)
  · rw [advances.round] at votes
    obtain ⟨viewEqOld, voting⟩ := voted.voting_of_vote old votes
    rcases voted.backed effect old view historyHash' votes with ⟨_, proposer, storedOld⟩
    have preparing : replica.phase = .preparePhase := by
      rcases voting with preparing | committing
      · exact preparing
      · simp [advances.commit committing] at relevant
    have storedNow := repairHistoryMsgs_of_silentMoves moves stored
    rw [advances.round, ← viewEq, viewEqOld] at storedNow
    rw [viewEqOld] at storedOld
    have isFound : ∀ {proposer hist},
        .repairHistory proposer replica.view replica.round hist ∈
          insert msg replica.repairHistoryMsgs →
        hist ∈ foundValues (insert msg replica.repairHistoryMsgs)
          (historyFor replica.view replica.round) :=
      fun stored => mem_foundValues_iff.mpr ⟨_, stored, historyFor_eq_some_iff.mpr ⟨_, rfl⟩⟩
    exact ⟨viewEq, Finset.card_le_one.mp (single preparing) _
      (isFound (Finset.mem_insert_of_mem storedOld)) _ (isFound storedNow)⟩

/-- The vote handler keeps the votes in agreement. -/
theorem of_vote {order : HashOrder} {msg : Message} (voted : Voted replica trace)
    (moves : Chain (SilentMove (.message order msg)) replica next effects)
    (single : replica.phase = .preparePhase → (foundValues
      (insert msg replica.repairHistoryMsgs) (historyFor replica.view replica.round)).card ≤ 1)
    {historyHash : UInt64} (guard : canRepairPrepare order next = some historyHash) :
    Voted { next with phase := .preparePhase, proposedHistoryHash := historyHash }
      (trace ++ effects ++
        [.broadcast (.repairPrepare next.nodeId next.view next.round historyHash)]) := by
  rcases canRepairPrepare_eq_some guard with ⟨relevant, sender, stored⟩
  have repeats := voted.vote_repeats moves single relevant stored
  have before := voted.of_silentMoves moves
  constructor
  · exact before.emitted.of_repairMove (.vote relevant stored)
  · intro effect effectMem view historyHash' votes
    rcases List.mem_append.mp effectMem with old | new
    · obtain ⟨rfl, rfl⟩ := repeats effect old view historyHash' votes
      exact ⟨rfl, sender, stored⟩
    · rw [List.mem_singleton.mp new] at votes
      cases votes
      exact ⟨rfl, sender, stored⟩
  · apply before.agree.append_single
    intro slot value votes effect effectMem value' votesEarlier
    cases votes
    exact (repeats effect effectMem next.view value' votesEarlier).2

/-- A call whose replica sees a single proposal keeps the votes in agreement. -/
theorem of_step (voted : Voted replica trace)
    (single : (Call.mk input replica next effects).SingleProposal)
    (steps : step replica input = some (next, effects)) : Voted next (trace ++ effects) := by
  rw [step_eq_runStages] at steps
  cases input with
  | event timer =>
      have moves : Chain (SilentMove (.event timer)) replica next effects :=
        silentMoves_of_runStages (List.Subset.refl _) (silent_eventStages timer) steps
      exact voted.of_silentMoves moves
  | message order msg =>
      rw [messageStages_eq, runStages_append_eq_some_iff] at steps
      rcases steps with ⟨waiting, first, others, front, rest, rfl⟩
      rcases runStages_cons_eq_some_iff.mp rest with ⟨decided, second, third, vote, back, rfl⟩
      have listening : Chain (SilentMove (.message order msg)) replica
          ((onReceiveRepairHistory order msg).store waiting) (first ++ []) :=
        (silentMoves_of_runStages (by simp [messageStages_eq order msg])
          (silent_stagesBeforeVote msg) front).tail ⟨.of_store (by simp [messageStages_eq]) waiting,
            by simp⟩
      have after : Chain (SilentMove (.message order msg)) decided next third :=
        silentMoves_of_runStages (by simp [messageStages_eq order msg])
          (silent_stagesAfterVote msg) back
      rw [← List.append_assoc, ← List.append_assoc]
      rw [List.append_nil] at listening
      rcases Stage.run_cases vote with ⟨_, rfl, rfl⟩ | ⟨cue, listens, performs⟩
      · rw [List.append_nil]
        exact (voted.of_silentMoves listening).of_silentMoves after
      · rcases Option.map_eq_some_iff.mp listens with ⟨historyHash, guard, rfl⟩
        cases performs
        exact (voted.of_vote listening (single msg rfl) guard).of_silentMoves after

end Voted

variable {config : Config} {nodeId : NodeId} {kvStore : S} {history : History S}

theorem voted_of_localRun (run : LocalRun config nodeId kvStore history)
    (single : ∀ call ∈ history.calls, call.SingleProposal) :
    Voted history.replica history.effects := by
  revert single
  apply run.call_induction (P := fun history => (∀ call ∈ history.calls, call.SingleProposal) →
    Voted history.replica history.effects)
  · intro _
    exact voted_new config nodeId kvStore
  · intro earlier input post effects _ ih steps single
    have voted := ih fun call callMem => single call (List.mem_append_left _ callMem)
    have last := single _ (List.mem_append_right _ List.mem_cons_self)
    simpa [History.effects] using voted.of_step last steps

/-- A replica that sees a single proposal in each of its calls votes for one
history in each view and round. -/
theorem votes_agree_of_singleProposal (run : LocalRun config nodeId kvStore history)
    (single : ∀ call ∈ history.calls, call.SingleProposal) :
    Agree prepareVote history.effects :=
  (voted_of_localRun run single).agree

section Solo

attribute [local instance] plainHasher

/-- Two proposals for one view and round reach a replica one after the other. -/
def conflictingInputs : List Input :=
  [.message .greatest (.conflictProof 0 0),
    .message .greatest (.repairHistory "r0" 0 0 1),
    .message .greatest (.repairHistory "r0" 0 0 2)]

def conflictingHistory : History MemKvStore :=
  (execute History.next (History.start (Config.forTest 4 1 0) "r1" MemKvStore.new)
    conflictingInputs).get (by decide +kernel)

/-- The replica votes for both of them. -/
theorem prepare_equivocation :
    ¬∀ history : History MemKvStore,
      LocalRun (Config.forTest 4 1 0) "r1" MemKvStore.new history →
        Agree prepareVote history.effects := by
  intro agree
  have votes : conflictingHistory.effects.filterMap prepareVote = [((0, 0), 1), ((0, 0), 2)] := by
    decide +kernel
  rcases List.mem_filterMap.mp (votes ▸ List.mem_cons_self) with ⟨first, firstMem, firstVote⟩
  rcases List.mem_filterMap.mp (votes ▸ List.mem_cons_of_mem _ List.mem_cons_self) with
    ⟨second, secondMem, secondVote⟩
  have same := agree conflictingHistory (reachable_of_execute (Option.some_get _).symm)
    first firstMem second secondMem (0, 0) 1 2 firstVote secondVote
  contradiction

theorem votes_agree_of_singleProposal_solo :
    soloHistory.effects.filterMap prepareVote = [((1, 0), 1), ((1, 0), 1)] ∧
      Agree prepareVote soloHistory.effects :=
  ⟨by decide +kernel, votes_agree_of_singleProposal localRun_soloHistory (by decide +kernel)⟩

end Solo

end Raspen
