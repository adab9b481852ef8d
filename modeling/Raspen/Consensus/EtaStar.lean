import Raspen.Consensus.History
import Mathlib.Order.Bounds.Defs

/-!
# The largest sequence number

`eta_star` should hold the largest sequence number seen in the round.  No handler ever
writes it, so it is right exactly while all sequence numbers are 0.
-/

namespace Raspen

open Raspen.Transition

variable {S : Type} [KvStoreOps S]

/-- The sequence numbers of the SPECULATEs that `calls` appended in `round`. -/
def appendedEtas (calls : List (Call S)) (round : UInt64) : Set UInt64 :=
  {eta | ∃ call ∈ calls, ∃ replica logIdx fromSeq msgRound opHash,
    (replica, .speculate logIdx) ∈ call.cues ∧ replica.round = round ∧
      call.input.delivered = some (.speculate fromSeq msgRound opHash eta)}

/-- `etaStar` is the largest of `etas`, and 0 if there are none. -/
def Largest (etas : Set UInt64) (etaStar : UInt64) : Prop :=
  IsGreatest (insert 0 etas) etaStar

theorem largest_zero_iff {etas : Set UInt64} : Largest etas 0 ↔ ∀ eta ∈ etas, eta = 0 := by
  constructor
  · rintro ⟨_, bound⟩ eta etaMem
    have below : eta ≤ 0 := bound (Set.mem_insert_of_mem 0 etaMem)
    exact UInt64.le_zero_iff.mp below
  · intro zeros
    constructor
    · exact Set.mem_insert 0 etas
    · intro eta etaMem
      rcases etaMem with rfl | inside
      · exact UInt64.le_refl 0
      · exact zeros eta inside ▸ UInt64.le_refl 0

omit [KvStoreOps S] in
theorem etaStar_store (replica : Replica S) (msg : Message) :
    (replica.store msg).etaStar = replica.etaStar := by
  cases msg <;> rfl

/-- No handler writes `eta_star`. -/
theorem etaStar_of_perform {replica next : Replica S} {cue : Cue} {effects : List Effect}
    (performs : perform replica cue = some (next, effects)) : next.etaStar = replica.etaStar := by
  cases cue with
  | speculate logIdx =>
      rcases handleSpeculate_eq_some performs with ⟨_, _, _, _, _, _, rfl, _⟩
      rfl
  | stateReply chkptIdx =>
      rcases handleStateReply_eq_some performs with ⟨_, _, _, _, rfl, _⟩
      rfl
  | applyRepair historyHash =>
      rcases handleApplyRepair_eq_some performs with ⟨_, _, _, _, rfl, _⟩
      rfl
  | repairDoneCatchup round =>
      rcases perform_repairDoneCatchup_eq_some performs with ⟨_, _, rfl, _⟩
      rfl
  | viewChange newView =>
      rcases perform_viewChange_eq_some performs with ⟨_, _, rfl, _⟩
      rfl
  | _ =>
      cases performs
      rfl

/-- A SYNC carries the `eta_star` of the state it was sent on. -/
theorem sync_of_perform {replica next : Replica S} {cue : Cue} {effects : List Effect}
    (performs : perform replica cue = some (next, effects)) {sender : NodeId}
    {round logIdx etaStar : UInt64} {logHash : Hash}
    (sends : .broadcast (.sync sender round logIdx logHash etaStar) ∈ effects) :
    etaStar = replica.etaStar := by
  have emits := emits_of_perform performs _ sends
  cases cue with
  | sendSync top =>
      cases performs
      rw [List.mem_singleton] at sends
      cases sends
      rfl
  | _ => simp [Cue.emits, Effect.message] at emits

section Runs

variable {config : Config} {nodeId : NodeId} {kvStore : S} {history : History S}

/-- `eta_star` is 0 in every state of a run. -/
theorem etaStar_of_visits (run : LocalRun config nodeId kvStore history) {replica : Replica S}
    (visits : history.Visits replica) : replica.etaStar = 0 := by
  refine run.visits_invariant (P := fun replica => replica.etaStar = 0) rfl ?_ ?_ visits
  · intro replica msg zero
    rw [etaStar_store]
    exact zero
  · intro input replica cue next effects zero _ performs
    rw [etaStar_of_perform performs]
    exact zero

/-- Every SYNC of a run carries 0. -/
theorem etaStar_of_sync (run : LocalRun config nodeId kvStore history) {call : Call S}
    (callMem : call ∈ history.calls) {sender : NodeId} {round logIdx etaStar : UInt64}
    {logHash : Hash}
    (sends : .broadcast (.sync sender round logIdx logHash etaStar) ∈ call.effects) :
    etaStar = 0 := by
  have steps := run.step_of_mem_calls callMem
  rw [step_eq_runStages] at steps
  rcases exists_firing_of_mem_effects steps sends with
    ⟨⟨replica, cue⟩, fires, next, effects, performs, emitted⟩
  rw [sync_of_perform performs emitted]
  exact etaStar_of_visits run (.inr ⟨call, callMem, cue, fires⟩)

/-- `eta_star` is the largest sequence number appended in the round, in the replica and
in each SYNC, exactly where all sequence numbers appended in the round are 0. -/
theorem eta_star_iff (run : LocalRun config nodeId kvStore history) :
    (Largest (appendedEtas history.calls history.replica.round) history.replica.etaStar ↔
      ∀ eta ∈ appendedEtas history.calls history.replica.round, eta = 0) ∧
    ∀ earlier call later, history.calls = earlier ++ call :: later →
      ∀ sender round logIdx logHash etaStar,
        .broadcast (.sync sender round logIdx logHash etaStar) ∈ call.effects →
        (Largest (appendedEtas (earlier ++ [call]) round) etaStar ↔
          ∀ eta ∈ appendedEtas (earlier ++ [call]) round, eta = 0) := by
  constructor
  · rw [etaStar_of_visits run (.inl rfl)]
    exact largest_zero_iff
  · intro earlier call later calls_eq sender round logIdx logHash etaStar sends
    have callMem : call ∈ history.calls := by simp [calls_eq]
    rw [etaStar_of_sync run callMem sends]
    exact largest_zero_iff

end Runs

/-! ## One sequenced operation -/

section Sequenced

attribute [local instance] plainHasher

/-- A replica appends an operation with sequence number 5. -/
def sequencedHistory : History MemKvStore :=
  (execute History.next (History.start (Config.forTest 1 0 0) "r0" MemKvStore.new)
    [.message .greatest (.speculate "seq" 0 Hash.zero 5)]).get (by decide +kernel)

theorem localRun_sequencedHistory :
    LocalRun (Config.forTest 1 0 0) "r0" MemKvStore.new sequencedHistory :=
  reachable_of_execute (Option.some_get _).symm

theorem five_mem_appendedEtas :
    5 ∈ appendedEtas sequencedHistory.calls sequencedHistory.replica.round := by
  have appended : ∃ call ∈ sequencedHistory.calls, ∃ firing ∈ call.cues,
      firing.2 = .speculate 0 ∧ firing.1.round = sequencedHistory.replica.round ∧
        call.input.delivered = some (.speculate "seq" 0 Hash.zero 5) := by
    decide +kernel
  rcases appended with ⟨call, callMem, ⟨replica, cue⟩, fires, rfl, round_eq, delivered⟩
  exact ⟨call, callMem, replica, 0, _, _, _, fires, round_eq, delivered⟩

/-- After sequence number 5, `eta_star` is 0. -/
theorem not_largest_sequencedHistory :
    ¬Largest (appendedEtas sequencedHistory.calls sequencedHistory.replica.round)
      sequencedHistory.replica.etaStar := by
  rintro ⟨_, bound⟩
  have five : 5 ≤ sequencedHistory.replica.etaStar :=
    bound (Set.mem_insert_of_mem 0 five_mem_appendedEtas)
  rw [etaStar_of_visits localRun_sequencedHistory (.inl rfl)] at five
  exact absurd five (by decide)

theorem eta_star_stuck :
    ¬∀ (config : Config) (nodeId : NodeId) (history : History MemKvStore),
      LocalRun config nodeId MemKvStore.new history →
        Largest (appendedEtas history.calls history.replica.round) history.replica.etaStar ∧
        ∀ earlier call later, history.calls = earlier ++ call :: later →
          ∀ sender round logIdx logHash etaStar,
            .broadcast (.sync sender round logIdx logHash etaStar) ∈ call.effects →
            Largest (appendedEtas (earlier ++ [call]) round) etaStar :=
  fun tracks => not_largest_sequencedHistory (tracks _ _ _ localRun_sequencedHistory).1

theorem eta_star_iff_sequenced :
    ¬∀ eta ∈ appendedEtas sequencedHistory.calls sequencedHistory.replica.round, eta = 0 :=
  fun zeros => not_largest_sequencedHistory ((eta_star_iff localRun_sequencedHistory).1.mpr zeros)

end Sequenced

end Raspen
