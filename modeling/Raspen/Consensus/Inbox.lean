import Raspen.Consensus.Move

/-!
# Stored messages

A replica stores a message only on delivery, in the set of its category; no
handler touches a message set.
-/

namespace Raspen

variable {S : Type}

/-- The message sets of a replica. -/
def Replica.inbox (replica : Replica S) : List (Finset Message) :=
  [replica.syncMsgs, replica.ackMsgs, replica.chkptMsgs, replica.timeoutMsgs, replica.logMsgs,
    replica.repairHistoryMsgs, replica.repairPrepareMsgs, replica.repairCommitMsgs,
    replica.repairDoneMsgs]

/-- `msg` is in some message set of the replica. -/
def Replica.Stores (replica : Replica S) (msg : Message) : Prop :=
  ∃ msgs ∈ replica.inbox, msg ∈ msgs

theorem not_stores_new (config : Config) (nodeId : NodeId) (kvStore : S) (msg : Message) :
    ¬(Replica.new config nodeId kvStore).Stores msg := by
  simp [Replica.Stores, Replica.inbox, Replica.new]

/-- Storing a message adds nothing else. -/
theorem stores_store {replica : Replica S} {delivered msg : Message}
    (stored : (replica.store delivered).Stores msg) : msg = delivered ∨ replica.Stores msg := by
  by_cases same : msg = delivered
  · exact .inl same
  · right
    unfold Replica.Stores Replica.inbox at stored ⊢
    cases delivered <;> simpa [Replica.store, same] using stored

variable [KvStoreOps S]

/-- Handlers leave the message sets alone. -/
theorem inbox_of_perform {replica next : Replica S} {cue : Cue} {effects : List Effect}
    (performs : perform replica cue = some (next, effects)) : next.inbox = replica.inbox := by
  cases cue with
  | speculate logIdx =>
      rcases handleSpeculate_eq_some performs with ⟨_, _, _, _, _, _, rfl, _⟩
      rfl
  | stateReply chkptIdx =>
      rcases handleStateReply_eq_some performs with ⟨_, _, _, _, rfl, _⟩
      rfl
  | applyRepair historyHash =>
      rcases handleApplyRepair_eq_some performs with ⟨_, _, _, _, rfl, _⟩
      rfl
  | repairDoneCatchup round =>
      rcases perform_repairDoneCatchup_eq_some performs with ⟨_, _, rfl, _⟩
      rfl
  | viewChange newView =>
      rcases perform_viewChange_eq_some performs with ⟨view, _, rfl, _⟩
      rfl
  | _ =>
      cases performs
      rfl

/-- What a move stores was stored before or has just been delivered. -/
theorem stores_of_move {input : Input} {replica next : Replica S} {effects : List Effect}
    {msg : Message} (move : Move input replica next effects) (stored : next.Stores msg) :
    (∃ order, input = .message order msg) ∨ replica.Stores msg := by
  cases move with
  | idle => exact .inr stored
  | store delivery =>
      rcases stores_store stored with rfl | old
      · exact .inl ⟨_, delivery⟩
      · exact .inr old
  | perform _ performs =>
      right
      rw [Replica.Stores, inbox_of_perform performs] at stored
      exact stored

/-- A call adds at most the delivered message to the stored histories. -/
theorem repairHistoryMsgs_of_move {order : HashOrder} {msg : Message} {replica next : Replica S}
    {effects : List Effect} (move : Move (.message order msg) replica next effects) :
    next.repairHistoryMsgs ⊆ insert msg replica.repairHistoryMsgs := by
  cases move with
  | idle => exact Finset.subset_insert _ _
  | store delivery =>
      cases delivery
      cases msg <;> simp [Replica.store, Finset.subset_insert]
  | perform _ performs =>
      have same := inbox_of_perform performs
      simp only [Replica.inbox, List.cons.injEq] at same
      rw [same.2.2.2.2.2.1]
      exact Finset.subset_insert _ _

end Raspen
