import Raspen.Consensus.CommittedPrefix
import Raspen.Consensus.PastRounds

/-!
# The closing blocks of a call

Behind the block that forms a checkpoint no block writes the checkpoint or what it is
formed of.  A Speculative replica passes them untouched unless it has evidence to act on.
-/

namespace Raspen

open KvStoreOps Raspen.Transition

variable {S : Type} [KvStoreOps S]

def Message.isSpeculate : Message → Bool
  | speculate .. => true
  | _ => false

/-! ## The blocks of a call -/

/-- The blocks behind the checkpoint, for a message they neither store nor hear. -/
def closingStages (order : HashOrder) : List (ReplicaStage S) :=
  evidenceStages ++ followStages order (.specReply "" 0 0 Hash.zero)

/-- A call on a SYNC stores it, forms the checkpoint that is due, and closes. -/
theorem closing_of_sync {order : HashOrder} {msg : Message} {replica post : Replica S}
    {effects : List Effect} (isSync : msg.isSync = true)
    (steps : processMessage order replica msg = some (post, effects)) :
    ∃ effects', runStages perform (closingStages order) (checkpointed (replica.store msg)) =
      some (post, effects') := by
  have opens : ∃ first, runStages perform ((normalStages msg).take 3) replica =
      some (checkpointed (replica.store msg), first) := by
    cases msg with
    | sync sender round logIdx logHash etaStar =>
        cases sends : canSendSyncThreshold replica <;>
          cases forms : canFormCheckpoint
            (replica.store (.sync sender round logIdx logHash etaStar)) <;>
          simp [normalStages, runStages, Stage.run, Stage.guard, onReceiveSync, canSpeculate,
            Replica.storeIf, Message.isSync, sends, forms, perform, handleSendSync,
            handleFormCheckpoint, checkpointed]
    | _ => contradiction
  have split : processMessage order replica msg =
      runStages perform ((normalStages msg).take 3 ++ closingStages order) replica := by
    cases msg <;> first | contradiction | rfl
  rcases opens with ⟨first, opened⟩
  rw [split, runStages_append, opened, Option.bind_some] at steps
  rcases Option.map_eq_some_iff.mp steps with ⟨⟨last, effects'⟩, closes, ended⟩
  cases ended
  exact ⟨effects', closes⟩

/-- A call on a SPECULATE appends in Speculative phase, forms the checkpoint that is due,
and closes. -/
theorem closing_of_speculate {order : HashOrder} {msg : Message} {replica post : Replica S}
    {effects : List Effect} (isSpeculate : msg.isSpeculate = true)
    (steps : processMessage order replica msg = some (post, effects)) :
    (replica.phase = .speculative ∧ ∃ grown first,
      handleSpeculate replica replica.kvSize = some (grown, first) ∧ ∃ effects',
        runStages perform (closingStages order) (checkpointed grown) = some (post, effects')) ∨
      replica.phase ≠ .speculative ∧ ∃ effects',
        runStages perform (closingStages order) (checkpointed replica) = some (post, effects') := by
  have closing : ∀ state others, runStages perform (checkpointStages.tail ++ closingStages order)
      state = some (post, others) → ∃ effects',
        runStages perform (closingStages order) (checkpointed state) = some (post, effects') := by
    intro state others run
    rcases runStages_checkpointStages state with ⟨first, forms, _⟩
    have opened : runStages perform checkpointStages.tail state =
        some (checkpointed state, first) :=
      (runStages_cons_of_silent rfl rfl).symm.trans forms
    rw [runStages_append, opened, Option.bind_some] at run
    rcases Option.map_eq_some_iff.mp run with ⟨⟨last, effects'⟩, closes, ended⟩
    cases ended
    exact ⟨effects', closes⟩
  have split : processMessage order replica msg = runStages perform
      (.guard (fun replica => (canSpeculate replica msg).map .speculate) ::
        (checkpointStages.tail ++ closingStages order)) replica := by
    cases msg with
    | speculate => rfl
    | _ => contradiction
  rw [split] at steps
  by_cases speculative : replica.phase = .speculative
  · left
    have appends : canSpeculate replica msg = some replica.kvSize := by
      cases msg with
      | speculate => exact if_pos speculative
      | _ => contradiction
    rcases runStages_cons_eq_some_iff.mp steps with ⟨grown, first, others, opens, rest, _⟩
    rcases Stage.run_cases opens with ⟨silent, _⟩ | ⟨cue, listens, performs⟩
    · have closed : canSpeculate replica msg = none := Option.map_eq_none_iff.mp silent
      rw [appends] at closed
      contradiction
    · rcases Option.map_eq_some_iff.mp listens with ⟨logIdx, hears, rfl⟩
      have heard : some replica.kvSize = some logIdx := appends.symm.trans hears
      cases heard
      exact ⟨speculative, grown, first, performs, closing grown others rest⟩
  · right
    have silent : canSpeculate replica msg = none := by
      cases msg with
      | speculate => exact if_neg speculative
      | _ => contradiction
    rw [runStages_cons_of_silent rfl (Option.map_eq_none_iff.mpr silent)] at steps
    exact ⟨speculative, closing replica effects steps⟩

/-! ## What the closing blocks leave alone -/

/-- What a checkpoint is formed of, and the checkpoint itself. -/
structure SameRecord (replica next : Replica S) : Prop where
  chkptIdx : next.chkptIdx = replica.chkptIdx
  chkptHash : next.chkptHash = replica.chkptHash
  syncMsgs : next.syncMsgs = replica.syncMsgs
  config : next.config = replica.config

omit [KvStoreOps S] in
theorem SameRecord.trans {first second third : Replica S} (same : SameRecord first second)
    (later : SameRecord second third) : SameRecord first third where
  chkptIdx := later.chkptIdx.trans same.chkptIdx
  chkptHash := later.chkptHash.trans same.chkptHash
  syncMsgs := later.syncMsgs.trans same.syncMsgs
  config := later.config.trans same.config

/-- The two replicas have the same checkpoint. -/
def SameCheckpoint (replica other : Replica S) : Prop :=
  replica.chkptIdx = other.chkptIdx ∧ replica.chkptHash = other.chkptHash

omit [KvStoreOps S] in
theorem SameCheckpoint.trans {first second third : Replica S}
    (same : SameCheckpoint first second) (later : SameCheckpoint second third) :
    SameCheckpoint first third :=
  ⟨same.1.trans later.1, same.2.trans later.2⟩

omit [KvStoreOps S] in
theorem SameCheckpoint.symm {replica other : Replica S} (same : SameCheckpoint replica other) :
    SameCheckpoint other replica :=
  ⟨same.1.symm, same.2.symm⟩

omit [KvStoreOps S] in
theorem SameRecord.sameCheckpoint {replica next : Replica S} (same : SameRecord replica next) :
    SameCheckpoint next replica :=
  ⟨same.chkptIdx, same.chkptHash⟩

section Closing

variable {order : HashOrder} {replica post : Replica S} {effects : List Effect}

theorem records_of_closing {stage : ReplicaStage S} (stageMem : stage ∈ closingStages order)
    {cue : Cue} (listens : stage.listen replica = some cue) : cue.records = false := by
  simp only [closingStages, evidenceStages, followStages, normalStages, voteStages, exitStages,
    List.drop, List.cons_append, List.nil_append, List.mem_cons, List.not_mem_nil,
    or_false] at stageMem
  rcases stageMem with rfl | rfl | rfl | rfl | rfl | rfl | rfl | rfl | rfl | rfl | rfl
  case inr.inr.inr.inr.inl => simp [Stage.guard, canStateRequest] at listens
  case inr.inr.inr.inr.inr.inl => simp [Stage.guard, canStateReply] at listens
  all_goals
    rcases Option.map_eq_some_iff.mp listens with ⟨_, _, rfl⟩
    rfl

theorem sameRecord_of_closing
    (closes : runStages perform (closingStages order) replica = some (post, effects)) :
    SameRecord replica post := by
  have sub : closingStages order ⊆
      (Input.message order (.specReply "" 0 0 Hash.zero)).stages (S := S) :=
    List.subset_append_right checkpointStages (closingStages order)
  have preserves : Preserves perform (Input.message order (.specReply "" 0 0 Hash.zero)).stages
      (fun _ cue => cue.records = false) (SameRecord replica) := by
    apply preserves_stages
    · intro state msg delivered same
      cases delivered
      exact same
    · intro state cue next emitted same keeps guard performs
      obtain ⟨idx_eq, hash_eq⟩ := checkpoint_of_perform keeps performs
      have inbox_eq := inbox_of_perform performs
      simp only [Replica.inbox, List.cons.injEq] at inbox_eq
      exact ⟨idx_eq.trans same.chkptIdx, hash_eq.trans same.chkptHash,
        inbox_eq.1.trans same.syncMsgs,
        (repairCommitMsgs_of_repairMove (.of_perform guard performs)).1.trans same.config⟩
  have fires : ∀ firing ∈ fired perform (closingStages order) replica,
      firing.2.records = false := by
    intro firing fires
    rcases exists_stage_of_mem_fired fires with ⟨stage, stageMem, listens⟩
    exact records_of_closing stageMem listens
  exact ((preserves.mono sub).of_runStages ⟨rfl, rfl, rfl, rfl⟩ fires closes).1

/-- A replica that has just entered REPAIR stays inside or finishes the round. -/
theorem follow_of_entered {entered : Replica S} (inside : entered.inRepair = true)
    (collecting : entered.phase = .collectingLogs)
    (follows : runStages perform (followStages order (.specReply "" 0 0 Hash.zero)) entered =
      some (post, effects)) :
    post.inRepair = true ∨ addU64 entered.round 1 = some post.round := by
  have steps : ∃ effects', processMessage order entered (.specReply "" 0 0 Hash.zero) =
      some (post, effects') := by
    rcases runStages_checkpointStages entered with ⟨first, forms, _⟩
    have noCheckpoint : checkpointed entered = entered := by
      simp [checkpointed, canFormCheckpoint, collecting]
    have undisturbed : Undisturbed entered := by
      simp [Undisturbed, canEnterAlign, canConflictProof, canTimeoutProof, collecting]
    have noEvidence := runStages_of_undisturbed undisturbed
    rw [processMessage_specReply, frontStages, runStages_append, runStages_append, forms,
      Option.bind_some, noCheckpoint, noEvidence, Option.map_some, Option.bind_some, follows]
    exact ⟨_, rfl⟩
  rcases steps with ⟨effects', steps⟩
  rcases message_cases steps with ⟨_, _, stays⟩ | ⟨_, exited⟩
  · exact .inl (stays inside)
  · exact .inr exited.round

/-- A Speculative replica passes the closing blocks untouched where it is undisturbed.
Elsewhere it leaves Speculative, or enters REPAIR and finishes the round at once. -/
theorem closing_cases (speculative : replica.phase = .speculative)
    (consistent : PhaseConsistent post)
    (closes : runStages perform (closingStages order) replica = some (post, effects)) :
    (Undisturbed replica ∧ post = replica) ∨
      ¬Undisturbed replica ∧
        (post.phase ≠ .speculative ∨ addU64 replica.round 1 = some post.round) := by
  have outside : replica.phase.isRepair = false := by
    rw [speculative]
    rfl
  rcases exists_evidencePass replica with ⟨middle, first, run, passes⟩
  rw [closingStages, runStages_append, run, Option.bind_some] at closes
  rcases Option.map_eq_some_iff.mp closes with ⟨⟨last, others⟩, follows, ended⟩
  cases ended
  cases passes with
  | align aligns =>
      right
      rw [followStages_specReply rfl] at follows
      cases follows
      constructor
      · intro calm
        rw [calm.1] at aligns
        contradiction
      · left
        intro speculative
        contradiction
  | enter _ evidence =>
      right
      constructor
      · rintro ⟨_, conflicts, expires⟩
        rcases evidence with conflict | timeout
        · exact conflict conflicts
        · exact timeout expires
      · rcases follow_of_entered rfl rfl follows with stays | finished
        · left
          rw [consistent.inRepair_eq] at stays
          intro speculative
          rw [speculative] at stays
          contradiction
        · exact .inr finished
  | pass undisturbed =>
      left
      rw [followStages_specReply outside] at follows
      cases follows
      exact ⟨undisturbed, rfl⟩

end Closing

end Raspen
