import Raspen.Aspen.Invariants
import Mathlib.Tactic.Ring

/-!
# The logs of the specification

The specification reads its log with `get`, which is undefined where no entry is.  In every
reachable state the indices of a log are exactly those below its size, so every reading is
defined.  Entries appended one after another have one hash for each index; entries that a
state transfer or a repair has rebuilt have another one, and this is where
`checkpoint_agreement` ends.
-/

namespace Raspen.Aspen

open Raspen.Transition

/-! ## What one transition can do to the log -/

/-- The log and the indices into it stay as they are. -/
structure KeepsLog (st post : LocalState) : Prop where
  kvSize : post.kvSize = st.kvSize
  kvStore : post.kvStore = st.kvStore
  startIdx : post.startIdx = st.startIdx
  chkptIdx : post.chkptIdx = st.chkptIdx
  chkptHash : post.chkptHash = st.chkptHash

theorem KeepsLog.refl (st : LocalState) : KeepsLog st st where
  kvSize := rfl
  kvStore := rfl
  startIdx := rfl
  chkptIdx := rfl
  chkptHash := rfl

/-- The transitions that write the log, with what their listeners have heard. -/
inductive LogStep (ctx : LocalContext) : Transition → Prop
  | keep {transition : Transition} :
      KeepsLog ctx.state transition.postState → LogStep ctx transition
  | append : LogStep ctx (handleSpeculate ctx ctx.state.kvSize)
  | checkpoint :
      0 < ctx.state.kvSize → LogStep ctx (handleFormCheckpoint ctx (ctx.state.kvSize - 1))
  | transfer {sender : NodeId} {chkptIdx chkptHash : Int} :
      .stateReply sender chkptIdx chkptHash ∈ ctx.messages →
      LogStep ctx (handleStateReply ctx chkptIdx)
  | rebuild : LogStep ctx (handleApplyRepair ctx ctx.state.proposedHistoryHash)
  | catchup : LogStep ctx (handleRepairDoneCatchup ctx ctx.state.round)

/-- Every transition of the main listener is a log step. -/
theorem logStep_of_mem {constants : Constants} {ctx : LocalContext} {transition : Transition}
    (transitionMem : transition ∈ mainListener constants ctx) : LogStep ctx transition := by
  rcases mem_mainListener_iff.mp transitionMem with
    ⟨param, heard, rfl⟩ | ⟨param, heard, rfl⟩ | ⟨param, heard, rfl⟩ | ⟨param, heard, rfl⟩ |
    ⟨param, heard, rfl⟩ | ⟨param, heard, rfl⟩ | ⟨param, heard, rfl⟩ | ⟨param, heard, rfl⟩ |
    ⟨param, heard, rfl⟩ | ⟨param, heard, rfl⟩ | ⟨param, heard, rfl⟩ | ⟨param, heard, rfl⟩ |
    ⟨param, heard, rfl⟩ | ⟨param, heard, rfl⟩ | ⟨param, heard, rfl⟩ | ⟨param, heard, rfl⟩
  -- speculate
  · simp only [listenSpeculate] at heard
    split at heard
    · rw [Finset.mem_singleton.mp heard]
      exact .append
    · simp at heard
  -- send a SYNC
  · exact .keep (.refl ctx.state)
  -- form a checkpoint
  · simp only [listenFormCheckpoint] at heard
    split at heard
    · rename_i guard
      split at heard
      · rw [Finset.mem_singleton.mp heard]
        exact .checkpoint guard.2
      · simp at heard
    · simp at heard
  -- enter ALIGN, prove a conflict, time out, prove the timeout, follow a proof, answer
  · exact .keep { KeepsLog.refl ctx.state with }
  · exact .keep { KeepsLog.refl ctx.state with }
  · exact .keep (.refl ctx.state)
  · exact .keep { KeepsLog.refl ctx.state with }
  · exact .keep { KeepsLog.refl ctx.state with }
  · exact .keep (.refl ctx.state)
  -- take over a STATE-REPLY
  · simp only [listenStateReply] at heard
    split at heard
    · obtain ⟨msg, msgMem, selects⟩ := Choreo.mem_filterMap_iff.mp heard
      cases msg with
      | stateReply sender chkptIdx chkptHash =>
          cases selects
          exact .transfer msgMem
      | _ => simp at selects
    · simp at heard
  -- propose, vote, lock
  · exact .keep { KeepsLog.refl ctx.state with }
  · exact .keep { KeepsLog.refl ctx.state with }
  · exact .keep { KeepsLog.refl ctx.state with }
  -- apply the history
  · simp only [listenApplyRepair] at heard
    split at heard
    · split at heard
      · rw [Finset.mem_singleton.mp heard]
        exact .rebuild
      · simp at heard
    · simp at heard
  -- catch up
  · simp only [listenRepairDoneCatchup] at heard
    split at heard
    · split at heard
      · rw [Finset.mem_singleton.mp heard]
        exact .catchup
      · simp at heard
    · simp at heard
  -- change the view
  · exact .keep { KeepsLog.refl ctx.state with }

/-- The STATE-REPLYs that a transition sends carry the checkpoint index of the replica. -/
theorem stateReply_of_reaches {constants : Constants} {ctx : LocalContext}
    {transition : Transition} (transitionMem : transition ∈ mainListener constants ctx)
    {effect : Effect} (effectMem : effect ∈ transition.effects) {receiver sender : NodeId}
    {chkptIdx chkptHash : Int}
    (reaches : effect.Reaches receiver (.stateReply sender chkptIdx chkptHash)) :
    chkptIdx = ctx.state.chkptIdx := by
  rcases mem_mainListener_iff.mp transitionMem with
    ⟨param, _, rfl⟩ | ⟨param, _, rfl⟩ | ⟨param, _, rfl⟩ | ⟨param, _, rfl⟩ | ⟨param, _, rfl⟩ |
    ⟨param, _, rfl⟩ | ⟨param, _, rfl⟩ | ⟨param, _, rfl⟩ | ⟨param, _, rfl⟩ | ⟨param, _, rfl⟩ |
    ⟨param, _, rfl⟩ | ⟨param, _, rfl⟩ | ⟨param, _, rfl⟩ | ⟨param, _, rfl⟩ | ⟨param, _, rfl⟩ |
    ⟨param, _, rfl⟩ <;>
  simp only [handleSpeculate, handleSendSync, handleFormCheckpoint, handleEnterAlign,
    handleConflictProof, handleChkptTimeout, handleTimeoutProof, handleEnterRepair, startRepair,
    handleStateRequest, handleStateReply, handleBroadcastHistory, handleRepairPrepare,
    handleRepairCommit, handleApplyRepair, handleRepairDoneCatchup, handleViewChange,
    List.cons_append, List.nil_append, List.mem_cons, List.not_mem_nil, or_false] at effectMem <;>
  rcases effectMem with rfl | rfl <;>
  simp_all [Choreo.Effect.Reaches]

/-! ## The indices of a log -/

theorem getElem?_rebuiltStore (size k : Int) :
    (rebuiltStore size)[k]? =
      if 0 ≤ k ∧ k < size then some { opHash := k, result := k, prevHash := k } else none := by
  unfold rebuiltStore
  split
  · rename_i inside
    apply Std.ExtTreeMap.getElem?_ofList_of_mem (k := k) Std.ReflCmp.compare_self
    · rw [List.pairwise_map]
      apply List.Pairwise.imp _ List.pairwise_lt_range
      intro a b below same
      have equal : (a : Int) = b := Std.LawfulEqCmp.eq_of_compare same
      omega
    · apply List.mem_map.mpr
      refine ⟨k.toNat, List.mem_range.mpr (by omega), ?_⟩
      rw [Int.toNat_of_nonneg inside.1]
  · rename_i outside
    apply Std.ExtTreeMap.getElem?_ofList_of_contains_eq_false
    rw [List.contains_eq_mem, decide_eq_false_iff_not]
    intro member
    simp only [List.map_map, List.mem_map, List.mem_range, Function.comp_apply] at member
    obtain ⟨a, below, rfl⟩ := member
    omega

/-- The indices of the log are those below its size, and the indices into it are in range. -/
structure Indexed (st : LocalState) : Prop where
  size : 0 ≤ st.kvSize
  keys : ∀ k, k ∈ st.kvStore ↔ 0 ≤ k ∧ k < st.kvSize
  startIdx : 0 ≤ st.startIdx ∧ st.startIdx ≤ st.kvSize
  chkptIdx : 0 ≤ st.chkptIdx

theorem mem_rebuiltStore_iff {size k : Int} : k ∈ rebuiltStore size ↔ 0 ≤ k ∧ k < size := by
  rw [Std.ExtTreeMap.mem_iff_isSome_getElem?, getElem?_rebuiltStore]
  split <;> simp_all

/-- A log step keeps the indices of the log in order, provided the sizes it rebuilds from are
not negative. -/
theorem Indexed.of_logStep {ctx : LocalContext} {transition : Transition}
    (indexed : Indexed ctx.state) (steps : LogStep ctx transition)
    (proposed : 0 ≤ ctx.state.proposedHistoryHash)
    (replies : ∀ sender chkptIdx chkptHash,
      .stateReply sender chkptIdx chkptHash ∈ ctx.messages → 0 ≤ chkptIdx) :
    Indexed transition.postState := by
  cases steps with
  | keep keeps =>
      constructor
      · rw [keeps.kvSize]
        exact indexed.size
      · rw [keeps.kvSize, keeps.kvStore]
        exact indexed.keys
      · rw [keeps.kvSize, keeps.startIdx]
        exact indexed.startIdx
      · rw [keeps.chkptIdx]
        exact indexed.chkptIdx
  | append =>
      have size := indexed.size
      have startIdx := indexed.startIdx
      constructor
      · exact Int.le_add_one size
      · intro k
        change k ∈ ctx.state.kvStore.insert ctx.state.kvSize _ ↔ 0 ≤ k ∧ k < ctx.state.kvSize + 1
        rw [Std.ExtTreeMap.mem_insert, indexed.keys, Std.compare_eq_iff_eq]
        omega
      · exact ⟨startIdx.1, Int.le_add_one startIdx.2⟩
      · exact indexed.chkptIdx
  | checkpoint positive =>
      exact { indexed with chkptIdx := Int.le_sub_one_of_lt positive }
  | transfer stored =>
      have nonneg := replies _ _ _ stored
      constructor
      · exact Int.le_add_one nonneg
      · exact fun _ => mem_rebuiltStore_iff
      · exact ⟨nonneg, Int.le_add_one le_rfl⟩
      · exact nonneg
  | rebuild =>
      constructor
      · exact proposed
      · exact fun _ => mem_rebuiltStore_iff
      · exact ⟨proposed, le_rfl⟩
      · exact indexed.chkptIdx
  | catchup => exact { indexed with startIdx := ⟨indexed.size, le_rfl⟩ }

/-- A proposed history is never negative. -/
theorem proposed_of_repairStep {constants : Constants} {ctx : LocalContext}
    {transition : Transition} (steps : RepairStep constants ctx transition)
    (nonneg : 0 ≤ ctx.state.proposedHistoryHash) :
    0 ≤ transition.postState.proposedHistoryHash := by
  cases steps with
  | quiet quiet _ =>
      rw [quiet.proposed]
      exact nonneg
  | propose _ _ chosen => exact chosen
  | vote _ _ => exact (Finset.fold_max_le _).mp le_rfl |>.1
  | apply _ | catchup _ => exact le_rfl
  | enter _ _ | lock _ | changeView _ => exact nonneg

/-- What holds of the logs in every reachable state. -/
structure LogsSound (env : GlobalContext) : Prop where
  indexed : ∀ node, Indexed (env.system node)
  proposed : ∀ node, 0 ≤ (env.system node).proposedHistoryHash
  replies : ∀ receiver sender chkptIdx chkptHash,
    .stateReply sender chkptIdx chkptHash ∈ env.messages receiver → 0 ≤ chkptIdx

section Runs

variable {constants : Constants} {events : NodeId → Finset Event} {env : GlobalContext}

theorem logsSound_initWith (constants : Constants) (events : NodeId → Finset Event) :
    LogsSound (initWith constants events) where
  indexed node := by
    constructor
    · exact le_rfl
    · intro k
      change k ∈ (∅ : KVStore) ↔ 0 ≤ k ∧ k < 0
      simp
    · exact ⟨le_rfl, le_rfl⟩
    · exact le_rfl
  proposed _ := le_rfl
  replies receiver sender chkptIdx chkptHash stored := by
    rcases mem_allByzantineMessages stored with ⟨_, _, ⟨_, other⟩ | ⟨_, other⟩⟩ <;> cases other

/-- One transition keeps the logs sound. -/
theorem LogsSound.applyEffect (sound : LogsSound env) {v : NodeId} {transition : Transition}
    (transitionMem : transition ∈ mainListener constants (Choreo.convertContext env v)) :
    LogsSound (Choreo.applyEffect applyCustomEffect env v transition) where
  indexed := by
    apply Choreo.forall_system_applyEffect applyCustomEffect_eq (P := fun _ st => Indexed st)
    · exact (sound.indexed v).of_logStep (logStep_of_mem transitionMem) (sound.proposed v)
        (sound.replies v)
    · exact fun node _ => sound.indexed node
  proposed := by
    apply Choreo.forall_system_applyEffect applyCustomEffect_eq
      (P := fun _ st => 0 ≤ st.proposedHistoryHash)
    · exact proposed_of_repairStep (repairStep_of_mem transitionMem) (sound.proposed v)
    · exact fun node _ => sound.proposed node
  replies receiver sender chkptIdx chkptHash stored := by
    rcases (Choreo.mem_messages_applyEffect_iff applyCustomEffect_eq).mp stored with old |
      ⟨effect, effectMem, reaches⟩
    · exact sound.replies receiver sender chkptIdx chkptHash old
    · rw [stateReply_of_reaches transitionMem effectMem reaches]
      exact (sound.indexed v).chkptIdx

theorem logsSound_of_run (run : Reachable (step constants) (initWith constants events) env) :
    LogsSound env := by
  apply run.invariant (P := LogsSound) (logsSound_initWith constants events)
  intro earlier later action _ sound steps
  obtain ⟨_, offers, rfl⟩ := Choreo.step_eq_some_iff.mp steps
  exact sound.applyEffect (Finset.mem_filter.mp offers).1

/-- In every state that the specification reaches, the indices of a log are exactly those
below its size, and `start_idx` is one of them or the size: no lookup of a listener or a
handler is undefined. -/
theorem lookups_defined (run : Reachable (step constants) (initWith constants events) env)
    (node : NodeId) :
    (∀ k, k ∈ (env.system node).kvStore ↔ 0 ≤ k ∧ k < (env.system node).kvSize) ∧
      0 ≤ (env.system node).startIdx ∧
      (env.system node).startIdx ≤ (env.system node).kvSize := by
  have indexed := (logsSound_of_run run).indexed node
  exact ⟨indexed.keys, indexed.startIdx⟩

theorem lookups_defined_committing :
    (committingEnv.system "r0").kvSize = 1 ∧
      (∀ k, k ∈ (committingEnv.system "r0").kvStore ↔
        0 ≤ k ∧ k < (committingEnv.system "r0").kvSize) ∧
      0 ≤ (committingEnv.system "r0").startIdx ∧
      (committingEnv.system "r0").startIdx ≤ (committingEnv.system "r0").kvSize :=
  ⟨by decide +kernel, lookups_defined run_committingEnv "r0"⟩

end Runs

/-! ## Checkpoints -/

/-- Correct replicas with one checkpoint index have one checkpoint hash. -/
def CheckpointAgreement (constants : Constants) (env : GlobalContext) : Prop :=
  ∀ node ∈ constants.correctNodes, ∀ other ∈ constants.correctNodes,
    (env.system node).chkptIdx = (env.system other).chkptIdx ∧
      0 < (env.system node).chkptIdx →
    (env.system node).chkptHash = (env.system other).chkptHash

/-- The hash at index `k` of a log that has only been appended to. -/
def appendedHash (k : Int) : Int :=
  k * (k + 1) / 2

theorem appendedHash_eq (k : Int) : appendedHash k = k + appendedHash (k - 1) := by
  have product : k * (k + 1) = (k - 1) * (k - 1 + 1) + k * 2 := by ring
  rw [appendedHash, appendedHash, product, Int.add_mul_ediv_right _ _ (by decide), Int.add_comm]

theorem logHashAt_insert (store : KVStore) (idx k : Int) (entry : KVEntry) :
    logHashAt (store.insert idx entry) k =
      if k = idx then entry.opHash + entry.prevHash else logHashAt store k := by
  unfold logHashAt
  rw [Std.ExtTreeMap.getElem?_insert]
  by_cases same : k = idx
  · simp [same]
  · have differ : ¬compare idx k = .eq := by
      rw [Std.compare_eq_iff_eq]
      exact fun equal => same equal.symm
    rw [if_neg differ, if_neg same]

/-- The log has only been appended to. -/
structure Appended (st : LocalState) : Prop where
  round : 0 ≤ st.round
  hashes : ∀ k, 0 ≤ k → k < st.kvSize → logHashAt st.kvStore k = appendedHash k
  chkptHash : st.chkptHash = appendedHash st.chkptIdx

theorem Appended.logTopHash_eq {st : LocalState} (appended : Appended st)
    (positive : 0 < st.kvSize) :
    logTopHash st.kvStore st.kvSize = appendedHash (st.kvSize - 1) := by
  rw [logTopHash, if_pos positive]
  exact appended.hashes _ (Int.le_sub_one_of_lt positive) (Int.sub_one_lt_of_le le_rfl)

theorem round_le_of_repairStep {constants : Constants} {ctx : LocalContext}
    {transition : Transition} (steps : RepairStep constants ctx transition) :
    ctx.state.round ≤ transition.postState.round := by
  cases steps with
  | quiet quiet _ => exact quiet.round.ge
  | apply _ | catchup _ => exact Int.le_add_one le_rfl
  | enter _ _ | propose _ _ _ | vote _ _ | lock _ | changeView _ => exact le_rfl

/-- An appended log stays one until a STATE-REPLY is taken over or a round ends. -/
theorem Appended.of_logStep {ctx : LocalContext} {transition : Transition}
    (appended : Appended ctx.state) (steps : LogStep ctx transition)
    (later : ctx.state.round ≤ transition.postState.round) :
    Appended transition.postState ∨ 0 < transition.postState.round ∨
      ∃ sender chkptIdx chkptHash, .stateReply sender chkptIdx chkptHash ∈ ctx.messages := by
  cases steps with
  | keep keeps =>
      left
      constructor
      · exact appended.round.trans later
      · rw [keeps.kvSize, keeps.kvStore]
        exact appended.hashes
      · rw [keeps.chkptIdx, keeps.chkptHash]
        exact appended.chkptHash
  | append =>
      refine .inl { appended with hashes := ?_ }
      intro k nonneg below
      change logHashAt (ctx.state.kvStore.insert ctx.state.kvSize _) k = _
      rw [logHashAt_insert]
      split
      · rename_i isTop
        rw [appendedHash_eq, isTop]
        congr 1
        by_cases positive : 0 < ctx.state.kvSize
        · exact (if_pos positive).trans (appended.hashes _ (Int.le_sub_one_of_lt positive)
            (Int.sub_one_lt_of_le le_rfl))
        · have empty : ctx.state.kvSize = 0 := by omega
          rw [empty]
          rfl
      · rename_i below'
        change k < ctx.state.kvSize + 1 at below
        exact appended.hashes k nonneg (by omega)
  | checkpoint positive =>
      exact .inl { appended with chkptHash := appended.logTopHash_eq positive }
  | transfer stored => exact .inr (.inr ⟨_, _, _, stored⟩)
  | rebuild | catchup => exact .inr (.inl (Int.lt_add_one_iff.mpr appended.round))

/-- The message carries a checkpoint to a replica in ALIGN. -/
def Message.isStateReply : Message → Bool
  | .stateReply .. => true
  | _ => false

/-- A state transfer has begun, a round has ended, or all logs have only been appended to. -/
def AppendedUntilRebuilt (constants : Constants) (env : GlobalContext) : Prop :=
  (∃ node ∈ constants.nodes, ∃ msg ∈ env.messages node, msg.isStateReply = true) ∨
    (∃ node ∈ constants.nodes, 0 < (env.system node).round) ∨
      ∀ node, Appended (env.system node)

/-- One transition keeps it so. -/
theorem AppendedUntilRebuilt.applyEffect {constants : Constants} {env : GlobalContext}
    (holds : AppendedUntilRebuilt constants env) {v : NodeId} (member : v ∈ constants.nodes)
    {transition : Transition}
    (transitionMem : transition ∈ mainListener constants (Choreo.convertContext env v)) :
    AppendedUntilRebuilt constants (Choreo.applyEffect applyCustomEffect env v transition) := by
  have grows := round_le_of_repairStep (repairStep_of_mem transitionMem)
  have kept : ∀ {node : NodeId} {msg : Message}, msg ∈ env.messages node →
      msg ∈ (Choreo.applyEffect applyCustomEffect env v transition).messages node :=
    fun stored => (Choreo.mem_messages_applyEffect_iff applyCustomEffect_eq).mpr (.inl stored)
  have rounds : ∀ node, (env.system node).round ≤
      ((Choreo.applyEffect applyCustomEffect env v transition).system node).round := by
    apply Choreo.forall_system_applyEffect applyCustomEffect_eq
      (P := fun node st => (env.system node).round ≤ st.round)
    · exact grows
    · exact fun node _ => le_rfl
  rcases holds with ⟨node, nodeMem, msg, stored, isReply⟩ | ⟨node, nodeMem, ended⟩ | appended
  · exact .inl ⟨node, nodeMem, msg, kept stored, isReply⟩
  · exact .inr (.inl ⟨node, nodeMem, ended.trans_le (rounds node)⟩)
  · rcases (appended v).of_logStep (logStep_of_mem transitionMem) grows with
      still | ended | ⟨sender, chkptIdx, chkptHash, stored⟩
    · right
      right
      exact Choreo.forall_system_applyEffect applyCustomEffect_eq
        (P := fun _ st => Appended st) still fun node _ => appended node
    · refine .inr (.inl ⟨v, member, ?_⟩)
      rw [Choreo.system_applyEffect applyCustomEffect_eq, Function.update_self]
      exact ended
    · exact .inl ⟨v, member, _, kept stored, rfl⟩

theorem appendedUntilRebuilt_of_run {constants : Constants} {events : NodeId → Finset Event}
    {env : GlobalContext} (run : Reachable (step constants) (initWith constants events) env) :
    AppendedUntilRebuilt constants env := by
  apply run.invariant (P := AppendedUntilRebuilt constants)
  · refine .inr (.inr fun node => ⟨le_rfl, ?_, rfl⟩)
    intro k nonneg below
    exact absurd below (Int.not_lt.mpr nonneg)
  · intro earlier later action _ holds steps
    obtain ⟨member, offers, rfl⟩ := Choreo.step_eq_some_iff.mp steps
    exact holds.applyEffect member (Finset.mem_filter.mp offers).1

/-- Appended logs have one hash for each index. -/
theorem checkpointAgreement_of_run {constants : Constants} {events : NodeId → Finset Event}
    {env : GlobalContext} (run : Reachable (step constants) (initWith constants events) env)
    (noReply : ∀ node ∈ constants.nodes, ∀ msg ∈ env.messages node, msg.isStateReply = false)
    (firstRound : ∀ node ∈ constants.nodes, (env.system node).round = 0) :
    CheckpointAgreement constants env := by
  rcases appendedUntilRebuilt_of_run run with ⟨node, nodeMem, msg, stored, isReply⟩ |
    ⟨node, nodeMem, ended⟩ | appended
  · rw [noReply node nodeMem msg stored] at isReply
    contradiction
  · rw [firstRound node nodeMem] at ended
    exact absurd ended (lt_irrefl 0)
  · rintro node _ other _ ⟨sameIdx, _⟩
    rw [(appended node).chkptHash, (appended other).chkptHash, sameIdx]

instance (constants : Constants) (env : GlobalContext) :
    Decidable (CheckpointAgreement constants env) :=
  inferInstanceAs (Decidable (∀ node ∈ constants.correctNodes, ∀ other ∈ constants.correctNodes,
    _ ∧ _ → _))

/-- Five replicas append two entries and broadcast SYNC, and two of them form a checkpoint. -/
def checkpointingChoices : List (NodeId × (LocalContext → Transition)) :=
  ["r0", "r1", "r2", "r3", "r4"].map (·, fun ctx => handleSpeculate ctx 0) ++
    ["r0", "r1", "r2", "r3", "r4"].map (·, fun ctx => handleSpeculate ctx 1) ++
    ["r0", "r1", "r2", "r3", "r4"].map (·, fun ctx => handleSendSync ctx 1) ++
    ["r0", "r1"].map (·, fun ctx => handleFormCheckpoint ctx 1)

def checkpointedEnv : GlobalContext :=
  (execute (Choreo.act sixNodes.nodes (mainListener sixNodes) applyCustomEffect)
    (init sixNodes) checkpointingChoices).get (by decide +kernel)

theorem run_checkpointedEnv : Reachable (step sixNodes) (init sixNodes) checkpointedEnv :=
  Choreo.reachable_of_act (reachable_of_execute (Option.some_get _).symm)

/-- One of the two enters ALIGN and takes over the very checkpoint that it has. -/
def transferringChoices : List (NodeId × (LocalContext → Transition)) :=
  [("r0", fun ctx => handleEnterAlign ctx 1), ("r1", fun ctx => handleStateRequest ctx "r0"),
    ("r0", fun ctx => handleStateReply ctx 1)]

def transferredEnv : GlobalContext :=
  (execute (Choreo.act sixNodes.nodes (mainListener sixNodes) applyCustomEffect)
    checkpointedEnv transferringChoices).get (by decide +kernel)

theorem run_transferredEnv : Reachable (step sixNodes) (init sixNodes) transferredEnv :=
  run_checkpointedEnv.trans
    (Choreo.reachable_of_act (reachable_of_execute (Option.some_get _).symm))

/-- The hash of a transferred entry is not the one of the appended entry. -/
theorem checkpoints_differ :
    (∀ node ∈ sixNodes.nodes, (transferredEnv.system node).round = 0) ∧
      ¬CheckpointAgreement sixNodes transferredEnv := by
  decide +kernel

/-- `checkpoint_agreement` holds in every state that the specification reaches before the
first STATE-REPLY is sent and the first replica leaves round 0.  The first condition is
needed: a state transfer alone leads to a state that violates it. -/
theorem checkpoint_agreement_until_rebuilt :
    (∀ (constants : Constants) (events : NodeId → Finset Event) (env : GlobalContext),
      Reachable (step constants) (initWith constants events) env →
      (∀ node ∈ constants.nodes, ∀ msg ∈ env.messages node, msg.isStateReply = false) →
      (∀ node ∈ constants.nodes, (env.system node).round = 0) →
      CheckpointAgreement constants env) ∧
    ∃ (constants : Constants) (env : GlobalContext),
      Reachable (step constants) (init constants) env ∧
        (∀ node ∈ constants.nodes, (env.system node).round = 0) ∧
        ¬CheckpointAgreement constants env := by
  constructor
  · intro constants events env run noReply firstRound
    exact checkpointAgreement_of_run run noReply firstRound
  · exact ⟨sixNodes, transferredEnv, run_transferredEnv, checkpoints_differ⟩

theorem checkpoint_agreement_until_rebuilt_checkpointed :
    (checkpointedEnv.system "r0").chkptIdx = 1 ∧ (checkpointedEnv.system "r1").chkptIdx = 1 ∧
      CheckpointAgreement sixNodes checkpointedEnv :=
  ⟨by decide +kernel, by decide +kernel,
    checkpoint_agreement_until_rebuilt.1 sixNodes _ checkpointedEnv run_checkpointedEnv
      (by decide +kernel) (by decide +kernel)⟩

end Raspen.Aspen
