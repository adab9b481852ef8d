import Raspen.Consensus.History

/-!
# No vote waits for another message

The REPAIR blocks of one call run in the order of the phases they lead to.  Each
block is silent once it has run, and a later block only stores votes the earlier
ones do not read, or moves on to a phase in which they are silent.
-/

namespace Raspen

open Raspen.Transition

variable {S : Type}

/-- A pattern of one category excludes the others. -/
theorem category_cases (msg : Message) :
    (msg.isRepairHistory = true → msg.isLogMsg = false) ∧
      (msg.isRepairPrepare = true → msg.isLogMsg = false ∧ msg.isRepairHistory = false) ∧
      (msg.isRepairCommit = true → msg.isLogMsg = false ∧ msg.isRepairHistory = false ∧
        msg.isRepairPrepare = false) ∧
      (msg.isRepairDone = true → msg.isLogMsg = false ∧ msg.isRepairHistory = false ∧
        msg.isRepairPrepare = false ∧ msg.isRepairCommit = false) := by
  cases msg <;> simp [Message.isLogMsg, Message.isRepairHistory, Message.isRepairPrepare,
    Message.isRepairCommit, Message.isRepairDone]

/-! ## What each phase silences -/

/-- A prepare vote is repeated only in PreparePhase. -/
def PrepareSettled (replica : Replica S) : Prop :=
  ∀ order, canRepairPrepare order replica ≠ none → replica.phase = .preparePhase

section Phases

variable {replica : Replica S}

theorem broadcast_silent (other : replica.phase ≠ .collectingLogs) :
    canBroadcastHistory replica = none := by
  simp [canBroadcastHistory, other]

theorem prepareSettled_of_phase (other : replica.phase ≠ .collectingLogs) :
    PrepareSettled replica := by
  intro order votes
  by_contra notPreparing
  simp [canRepairPrepare, other, notPreparing] at votes

theorem commit_silent (other : replica.phase ≠ .preparePhase) :
    canRepairCommit replica = none := by
  simp [canRepairCommit, other]

theorem apply_silent (other : replica.phase ≠ .commitPhase) : canApplyRepair replica = none := by
  simp [canApplyRepair, other]

/-- Outside REPAIR no guard of the agreement passes. -/
theorem repair_silent (outside : replica.phase.isRepair = false) :
    canBroadcastHistory replica = none ∧ (∀ order, canRepairPrepare order replica = none) ∧
      canRepairCommit replica = none ∧ canApplyRepair replica = none ∧
      canRepairDoneCatchup replica = none := by
  cases phase : replica.phase <;>
    simp_all [Phase.isRepair, canBroadcastHistory, canRepairPrepare, canRepairCommit,
      canApplyRepair, canRepairDoneCatchup]

/-- Other votes do not make a prepare vote due. -/
theorem PrepareSettled.store {msg : Message} (other : msg.isRepairHistory = false)
    (settled : PrepareSettled replica) : PrepareSettled (replica.store msg) := by
  intro order votes
  rw [canRepairPrepare_store other] at votes
  rw [Replica.store_phase]
  exact settled order votes

end Phases

/-! ## What each block leaves behind -/

section Blocks

variable [KvStoreOps S] {order : HashOrder} {msg : Message} {replica next : Replica S}
  {effects : List Effect}

theorem logMsg_cases (run : (onReceiveLogMsg msg).run perform replica = some (next, effects)) :
    canBroadcastHistory next = none ∨ next.phase = .preparePhase := by
  rcases Stage.run_cases run with ⟨silent, rfl, _⟩ | ⟨cue, listens, performs⟩
  · exact .inl (Option.map_eq_none_iff.mp silent)
  · rcases Option.map_eq_some_iff.mp listens with ⟨_, _, rfl⟩
    cases performs
    exact .inr rfl

theorem repairHistory_cases
    (run : (onReceiveRepairHistory order msg).run perform replica = some (next, effects)) :
    (next = replica.storeIf Message.isRepairHistory msg ∧ canRepairPrepare order next = none) ∨
      next.phase = .preparePhase := by
  rcases Stage.run_cases run with ⟨silent, rfl, _⟩ | ⟨cue, listens, performs⟩
  · exact .inl ⟨rfl, Option.map_eq_none_iff.mp silent⟩
  · rcases Option.map_eq_some_iff.mp listens with ⟨_, _, rfl⟩
    cases performs
    exact .inr rfl

theorem repairPrepare_cases
    (run : (onReceiveRepairPrepare msg).run perform replica = some (next, effects)) :
    (next = replica.storeIf Message.isRepairPrepare msg ∧ canRepairCommit next = none) ∨
      next.phase = .commitPhase := by
  rcases Stage.run_cases run with ⟨silent, rfl, _⟩ | ⟨cue, listens, performs⟩
  · exact .inl ⟨rfl, Option.map_eq_none_iff.mp silent⟩
  · rcases Option.map_eq_some_iff.mp listens with ⟨_, _, rfl⟩
    cases performs
    exact .inr rfl

theorem repairCommit_cases
    (run : (onReceiveRepairCommit msg).run perform replica = some (next, effects)) :
    (next = replica.storeIf Message.isRepairCommit msg ∧ canApplyRepair next = none) ∨
      next.phase = .speculative := by
  rcases Stage.run_cases run with ⟨silent, rfl, _⟩ | ⟨cue, listens, performs⟩
  · exact .inl ⟨rfl, Option.map_eq_none_iff.mp silent⟩
  · rcases Option.map_eq_some_iff.mp listens with ⟨_, _, rfl⟩
    rcases handleApplyRepair_eq_some performs with ⟨_, _, _, _, rfl, _⟩
    exact .inr rfl

theorem repairDone_cases
    (run : (onReceiveRepairDone msg).run perform replica = some (next, effects)) :
    (next = replica.storeIf Message.isRepairDone msg ∧ canRepairDoneCatchup next = none) ∨
      next.phase = .speculative := by
  rcases Stage.run_cases run with ⟨silent, rfl, _⟩ | ⟨cue, listens, performs⟩
  · exact .inl ⟨rfl, Option.map_eq_none_iff.mp silent⟩
  · rcases Option.map_eq_some_iff.mp listens with ⟨_, _, rfl⟩
    rcases perform_repairDoneCatchup_eq_some performs with ⟨_, _, rfl, _⟩
    exact .inr rfl

end Blocks

/-! ## One pass over the REPAIR blocks -/

variable [KvStoreOps S]

/-- The REPAIR blocks of a call, each with what holds once it has run. -/
def repairBlocks (order : HashOrder) (msg : Message) :
    List (ReplicaStage S × (Replica S → Prop)) :=
  [(onReceiveLogMsg msg, fun replica => canBroadcastHistory replica = none),
    (onReceiveRepairHistory order msg, PrepareSettled),
    (onReceiveRepairPrepare msg, fun replica => canRepairCommit replica = none),
    (onReceiveRepairCommit msg, fun replica => canApplyRepair replica = none),
    (onReceiveRepairDone msg, fun replica => canRepairDoneCatchup replica = none)]

/-- Every block is settled when it has run. -/
theorem settles_repairBlocks (order : HashOrder) (msg : Message) :
    ∀ block ∈ repairBlocks (S := S) order msg, ∀ replica next effects,
      block.1.run perform replica = some (next, effects) → block.2 next := by
  intro block blockMem replica next effects run
  simp only [repairBlocks, List.mem_cons, List.not_mem_nil, or_false] at blockMem
  rcases blockMem with rfl | rfl | rfl | rfl | rfl
  · rcases logMsg_cases run with silent | preparing
    · exact silent
    · exact broadcast_silent (by simp [preparing])
  · rcases repairHistory_cases run with ⟨_, silent⟩ | preparing
    · intro order' votes
      exact absurd (canRepairPrepare_eq_none silent) votes
    · exact prepareSettled_of_phase (by simp [preparing])
  · rcases repairPrepare_cases run with ⟨_, silent⟩ | committing
    · exact silent
    · exact commit_silent (by simp [committing])
  · rcases repairCommit_cases run with ⟨_, silent⟩ | speculative
    · exact silent
    · exact apply_silent (by simp [speculative])
  · rcases repairDone_cases run with ⟨_, silent⟩ | speculative
    · exact silent
    · exact canRepairDoneCatchup_of_speculative speculative

omit [KvStoreOps S] in
/-- What holds outside a phase survives a later block that leads to another phase, or
that only stores what it does not read. -/
theorem kept_of_later {Q : Replica S → Prop} {phase reached : Phase}
    {pattern : Message → Bool} {msg : Message} {replica next : Replica S}
    (outside : ∀ {replica : Replica S}, replica.phase ≠ phase → Q replica)
    (stored : pattern msg = true → Q replica → Q (replica.store msg)) (holds : Q replica)
    (later : next = replica.storeIf pattern msg ∨ next.phase = reached)
    (moved : reached ≠ phase) : Q next := by
  rcases later with rfl | arrived
  · unfold Replica.storeIf
    split
    · rename_i matched
      exact stored matched holds
    · exact holds
  · apply outside
    rw [arrived]
    exact moved

/-- No block wakes an earlier one. -/
theorem keeps_repairBlocks (order : HashOrder) (msg : Message) :
    (repairBlocks (S := S) order msg).Pairwise fun earlier later =>
      ∀ replica next effects, earlier.2 replica →
        later.1.run perform replica = some (next, effects) → earlier.2 next := by
  obtain ⟨history, prepare, commit, done⟩ := category_cases msg
  have broadcastStored : ∀ {replica : Replica S}, msg.isLogMsg = false →
      canBroadcastHistory replica = none → canBroadcastHistory (replica.store msg) = none :=
    fun other silent => (canBroadcastHistory_store other).trans silent
  have commitStored : ∀ {replica : Replica S}, msg.isRepairPrepare = false →
      canRepairCommit replica = none → canRepairCommit (replica.store msg) = none :=
    fun other silent => (canRepairCommit_store other).trans silent
  simp only [repairBlocks, List.pairwise_cons, List.mem_cons, List.not_mem_nil, or_false,
    forall_eq_or_imp, forall_eq, List.Pairwise.nil, and_true]
  refine ⟨⟨?_, ?_, ?_, ?_⟩, ⟨?_, ?_, ?_⟩, ⟨?_, ?_⟩, ?_, ?_⟩
  · intro replica next effects silent run
    exact kept_of_later broadcast_silent (fun matched => broadcastStored (history matched)) silent
      ((repairHistory_cases run).imp And.left id) (by decide)
  · intro replica next effects silent run
    exact kept_of_later broadcast_silent (fun matched => broadcastStored (prepare matched).1)
      silent ((repairPrepare_cases run).imp And.left id) (by decide)
  · intro replica next effects silent run
    exact kept_of_later broadcast_silent (fun matched => broadcastStored (commit matched).1)
      silent ((repairCommit_cases run).imp And.left id) (by decide)
  · intro replica next effects silent run
    exact kept_of_later broadcast_silent (fun matched => broadcastStored (done matched).1)
      silent ((repairDone_cases run).imp And.left id) (by decide)
  · intro replica next effects settled run
    exact kept_of_later prepareSettled_of_phase (fun matched => .store (prepare matched).2)
      settled ((repairPrepare_cases run).imp And.left id) (by decide)
  · intro replica next effects settled run
    exact kept_of_later prepareSettled_of_phase (fun matched => .store (commit matched).2.1)
      settled ((repairCommit_cases run).imp And.left id) (by decide)
  · intro replica next effects settled run
    exact kept_of_later prepareSettled_of_phase (fun matched => .store (done matched).2.1)
      settled ((repairDone_cases run).imp And.left id) (by decide)
  · intro replica next effects silent run
    exact kept_of_later commit_silent (fun matched => commitStored (commit matched).2.2) silent
      ((repairCommit_cases run).imp And.left id) (by decide)
  · intro replica next effects silent run
    exact kept_of_later commit_silent (fun matched => commitStored (done matched).2.2.1) silent
      ((repairDone_cases run).imp And.left id) (by decide)
  · intro replica next effects silent run
    exact kept_of_later apply_silent
      (fun matched => (canApplyRepair_store (done matched).2.2.2).trans) silent
      ((repairDone_cases run).imp And.left id) (by decide)
  · simp

/-! ## No lost wake-up -/

/-- A replica that waits for more messages: no REPAIR handler is due, apart from
repeating the prepare vote. -/
structure Waiting (replica : Replica S) : Prop where
  broadcastHistory : canBroadcastHistory replica = none
  repairPrepare : PrepareSettled replica
  repairCommit : canRepairCommit replica = none
  applyRepair : canApplyRepair replica = none
  repairDoneCatchup : canRepairDoneCatchup replica = none

/-- Whatever was buffered, a call ends in a state that waits for another message. -/
theorem waiting_of_processMessage {order : HashOrder} {msg : Message} {replica post : Replica S}
    {effects : List Effect} (steps : processMessage order replica msg = some (post, effects)) :
    Waiting post := by
  rcases runStages_append_eq_some_iff.mp steps with ⟨middle, _, _, _, repairs, _⟩
  have settled := settled_of_runStages (settles_repairBlocks order msg)
    (keeps_repairBlocks order msg) repairs
  simp only [repairBlocks, List.mem_cons, List.not_mem_nil, or_false, forall_eq_or_imp,
    forall_eq] at settled
  rcases settled with ⟨broadcast, prepare, commit, apply, catchup⟩
  exact ⟨broadcast, prepare, commit, apply, catchup⟩

variable {config : Config} {nodeId : NodeId} {kvStore : S} {history : History S}

/-- No call of a run leaves a REPAIR handler waiting that is already due. -/
theorem no_lost_wakeup (run : LocalRun config nodeId kvStore history) :
    ∀ call ∈ history.calls, ∀ order msg, call.input = .message order msg → Waiting call.post := by
  rintro ⟨input, pre, post, effects⟩ callMem order msg rfl
  exact waiting_of_processMessage (run.step_of_mem_calls callMem)

section Solo

attribute [local instance] plainHasher

theorem no_lost_wakeup_solo :
    soloHistory.replica.phase = .commitPhase ∧ ∀ call ∈ soloHistory.calls, ∀ order msg,
      call.input = .message order msg → Waiting call.post :=
  ⟨by decide +kernel, no_lost_wakeup localRun_soloHistory⟩

end Solo

end Raspen
