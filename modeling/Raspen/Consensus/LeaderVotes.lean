import Raspen.Consensus.Inbox
import Raspen.Consensus.Applied

/-!
# Whose history is voted on

The vote guard takes any stored REPAIR-HISTORY for the current view and round and
never looks at its sender.  A vote is for the leader's proposal as long as every
proposal stored by then repeats one of the leader's.
-/

namespace Raspen

open Raspen.Transition

variable {S : Type}

/-- The leader of the current view proposed `historyHash`, as far as the replica has
stored. -/
def Replica.LeaderProposed (replica : Replica S) (historyHash : UInt64) : Prop :=
  ∃ leader ∈ replica.config.leader replica.view,
    Message.repairHistory leader replica.view replica.round historyHash ∈ replica.repairHistoryMsgs

/-- Every stored proposal for the current view and round is one of the leader's. -/
def Replica.LeaderBacked (replica : Replica S) : Prop :=
  ∀ historyHash ∈ foundValues replica.repairHistoryMsgs (historyFor replica.view replica.round),
    replica.LeaderProposed historyHash

instance (replica : Replica S) (historyHash : UInt64) :
    Decidable (replica.LeaderProposed historyHash) :=
  inferInstanceAs (Decidable (∃ leader ∈ replica.config.leader replica.view, _))

-- over the proposals, not over every `u64`
instance (replica : Replica S) : Decidable replica.LeaderBacked :=
  Finset.decidableDforallFinset

/-- In the two phases of voting, every iteration order picks one of the leader's
histories exactly when all stored ones are. -/
theorem leaderBacked_iff {replica : Replica S}
    (voting : replica.phase = .collectingLogs ∨ replica.phase = .preparePhase) :
    (∀ order historyHash, canRepairPrepare order replica = some historyHash →
      replica.LeaderProposed historyHash) ↔ replica.LeaderBacked := by
  constructor
  · intro picked historyHash proposed
    apply picked (.preferring historyHash)
    have searched : ¬(replica.phase ≠ .collectingLogs ∧ replica.phase ≠ .preparePhase) := by
      rcases voting with phase | phase <;> simp [phase]
    rw [canRepairPrepare, if_neg searched]
    exact HashOrder.findMap_preferring proposed
  · intro backed order historyHash votes
    obtain ⟨_, sender, stored⟩ := canRepairPrepare_eq_some votes
    apply backed
    exact mem_foundValues_iff.mpr ⟨_, stored, historyFor_eq_some_iff.mpr ⟨sender, rfl⟩⟩

/-- The history hash a cue votes for. -/
def Cue.voted : Cue → Option UInt64
  | .repairPrepare historyHash => some historyHash
  | _ => none

/-- The replica has received `msg`. -/
def History.Delivered (history : History S) (msg : Message) : Prop :=
  ∃ call ∈ history.calls, call.input.delivered = some msg

variable [KvStoreOps S] {config : Config} {nodeId : NodeId} {kvStore : S} {history : History S}

/-- What a replica has stored it has received. -/
theorem delivered_of_stores (run : LocalRun config nodeId kvStore history) {replica : Replica S}
    (visits : history.Visits replica) {msg : Message} (stored : replica.Stores msg) :
    history.Delivered msg := by
  have received := run.of_preserves (P := fun replica => ∀ msg, replica.Stores msg →
    history.Delivered msg) (fun _ _ => True) ?_ (fun _ _ _ _ => trivial) ?_
  · rcases visits with rfl | ⟨call, callMem, cue, fires⟩
    · exact received.1 msg stored
    · exact (received.2 call callMem).2.2 _ fires msg stored
  · intro call callMem
    apply preserves_stages
    · intro replica delivered isInput holds other stored
      rcases stores_store stored with rfl | old
      · exact ⟨call, callMem, isInput⟩
      · exact holds other old
    · intro replica cue next effects holds _ _ performs other stored
      rw [Replica.Stores, inbox_of_perform performs] at stored
      exact holds other stored
  · intro other stored
    exact absurd stored (not_stores_new config nodeId kvStore other)

/-- Behind an emitted vote stands a vote cue. -/
theorem exists_vote_of_emitted (run : LocalRun config nodeId kvStore history) {sender : NodeId}
    {view round historyHash : UInt64}
    (emitted : .repairPrepare sender view round historyHash ∈ history.messages) :
    ∃ call ∈ history.calls, ∃ replica : Replica S,
      (replica, .repairPrepare historyHash) ∈ call.cues ∧ replica.view = view ∧
        replica.round = round := by
  rcases run.exists_firing_of_mem_messages emitted with
    ⟨call, callMem, ⟨replica, cue⟩, fires, next, effects, performs, effect, effectMem, _, isVote⟩
  have emits := emits_of_perform performs effect effectMem
  rw [isVote] at emits
  cases cue with
  | repairPrepare voted =>
      cases performs
      rw [List.mem_singleton.mp effectMem] at isVote
      cases isVote
      exact ⟨call, callMem, replica, fires, rfl, rfl⟩
  | _ => contradiction

/-- In a run that only votes where all stored proposals are the leader's, each vote is
for a history received from the leader of its view. -/
theorem leader_history_voted (run : LocalRun config nodeId kvStore history)
    (backed : ∀ call ∈ history.calls, ∀ firing ∈ call.cues, firing.2.voted.isSome = true →
      firing.1.LeaderBacked)
    {sender : NodeId} {view round historyHash : UInt64}
    (emitted : .repairPrepare sender view round historyHash ∈ history.messages) :
    ∃ leader, config.leader view = some leader ∧
      history.Delivered (.repairHistory leader view round historyHash) := by
  rcases exists_vote_of_emitted run emitted with ⟨call, callMem, replica, fires, rfl, rfl⟩
  have visits : history.Visits replica := .inr ⟨call, callMem, _, fires⟩
  rcases Call.guard_of_mem_cues fires with ⟨order, msg, _, votes⟩
  have voting := (canRepairPrepare_eq_some votes).1
  rcases (leaderBacked_iff voting).mpr (backed call callMem _ fires rfl) order historyHash votes
    with ⟨leader, leads, stored⟩
  rw [config_of_visits run visits] at leads
  constructor
  · constructor
    · exact leads
    · exact delivered_of_stores run visits ⟨_, by simp [Replica.inbox], stored⟩

section Imposed

attribute [local instance] plainHasher

/-- A replica in REPAIR hears a proposal from `proposer`. -/
def proposalInputs (proposer : NodeId) : List Input :=
  [.message .greatest (.conflictProof 0 0),
    .message .greatest (.repairHistory proposer 0 0 7)]

/-- The proposer is not the leader. -/
def imposedHistory : History MemKvStore :=
  (execute History.next (History.start (Config.forTest 4 1 0) "r1" MemKvStore.new)
    (proposalInputs "r2")).get (by decide +kernel)

theorem localRun_imposedHistory :
    LocalRun (Config.forTest 4 1 0) "r1" MemKvStore.new imposedHistory :=
  reachable_of_execute (Option.some_get _).symm

/-- A replica votes for a history that the leader has not sent. -/
theorem imposed_history_voted :
    ¬∀ history : History MemKvStore,
      LocalRun (Config.forTest 4 1 0) "r1" MemKvStore.new history →
      ∀ sender view round historyHash,
        .repairPrepare sender view round historyHash ∈ history.messages →
        ∃ leader, (Config.forTest 4 1 0).leader view = some leader ∧
          history.Delivered (.repairHistory leader view round historyHash) := by
  intro led
  rcases led imposedHistory localRun_imposedHistory "r1" 0 0 7 (by decide +kernel) with
    ⟨leader, leads, call, callMem, delivered⟩
  have leads_r0 : (Config.forTest 4 1 0).leader 0 = some "r0" := by
    decide +kernel
  cases leads_r0.symm.trans leads
  have others : ∀ call ∈ imposedHistory.calls,
      call.input.delivered ≠ some (.repairHistory "r0" 0 0 7) := by
    decide +kernel
  exact others call callMem delivered

/-- The proposer is the leader. -/
def ledHistory : History MemKvStore :=
  (execute History.next (History.start (Config.forTest 4 1 0) "r1" MemKvStore.new)
    (proposalInputs "r0")).get (by decide +kernel)

theorem localRun_ledHistory : LocalRun (Config.forTest 4 1 0) "r1" MemKvStore.new ledHistory :=
  reachable_of_execute (Option.some_get _).symm

theorem leader_history_voted_led :
    .repairPrepare "r1" 0 0 7 ∈ ledHistory.messages ∧
      ∃ leader, (Config.forTest 4 1 0).leader 0 = some leader ∧
        ledHistory.Delivered (.repairHistory leader 0 0 7) := by
  have emitted : .repairPrepare "r1" 0 0 7 ∈ ledHistory.messages := by
    decide +kernel
  constructor
  · exact emitted
  · exact leader_history_voted localRun_ledHistory (by decide +kernel) emitted

end Imposed

end Raspen
