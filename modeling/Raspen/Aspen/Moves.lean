import Raspen.Aspen.Transitions
import Raspen.Consensus.RepairMove

/-!
# What one transition can do to REPAIR

Sixteen handlers, of which eight write the fields or emit the messages of REPAIR.
`RepairStep` says once what those do, with the facts their listeners have heard; the
other transitions are quiet.
-/

namespace Raspen.Aspen

/-- The five message kinds of the REPAIR agreement. -/
def Message.isRepair : Message → Bool
  | .logMsg .. | .repairHistory .. | .repairPrepare .. | .repairCommit .. | .repairDone .. => true
  | _ => false

/-- Effects that carry no message of the REPAIR agreement. -/
def Quiet (effects : List Effect) : Prop :=
  ∀ effect ∈ effects, ∀ node msg, effect.Reaches node msg → msg.isRepair = false

/-- A change of state that REPAIR does not notice. -/
structure QuietStep (st post : LocalState) : Prop where
  processId : post.processId = st.processId
  round : post.round = st.round
  view : post.view = st.view
  inRepair : post.inRepair = st.inRepair
  proposed : post.proposedHistoryHash = st.proposedHistoryHash
  phase : post.phase = st.phase ∨ (post.phase.isRepair = false ∧ st.phase.isRepair = false)

theorem QuietStep.refl (st : LocalState) : QuietStep st st where
  processId := rfl
  round := rfl
  view := rfl
  inRepair := rfl
  proposed := rfl
  phase := .inl rfl

/-- The transitions of REPAIR, with what their listeners have heard. -/
inductive RepairStep (constants : Constants) (ctx : LocalContext) : Transition → Prop
  | quiet {transition : Transition} :
      QuietStep ctx.state transition.postState → Quiet transition.effects →
      RepairStep constants ctx transition
  | enter {proof : List Effect} :
      ctx.state.inRepair = false → Quiet proof → RepairStep constants ctx (startRepair ctx proof)
  | propose {historyHash : Int} :
      ctx.state.phase = .collectingLogs →
      constants.isLeader ctx.state.processId ctx.state.view = true → 0 ≤ historyHash →
      RepairStep constants ctx (handleBroadcastHistory ctx historyHash)
  | vote :
      ctx.state.phase = .collectingLogs ∨ ctx.state.phase = .preparePhase →
      hasRepairHistory ctx.messages ctx.state.view ctx.state.round = true →
      RepairStep constants ctx
        (handleRepairPrepare ctx (getHistoryHash ctx.messages ctx.state.view ctx.state.round))
  | lock :
      ctx.state.phase = .preparePhase →
      RepairStep constants ctx (handleRepairCommit ctx ctx.state.proposedHistoryHash)
  | apply :
      ctx.state.phase = .commitPhase →
      RepairStep constants ctx (handleApplyRepair ctx ctx.state.proposedHistoryHash)
  | catchup :
      ctx.state.phase.isRepair = true →
      RepairStep constants ctx (handleRepairDoneCatchup ctx ctx.state.round)
  | changeView :
      ctx.state.phase = .collectingLogs →
      RepairStep constants ctx (handleViewChange ctx (ctx.state.view + 1))

theorem quiet_nil : Quiet [] := by
  intro effect effectMem
  simp at effectMem

theorem quiet_broadcast {msg : Message} (other : msg.isRepair = false) :
    Quiet [.broadcast msg] := by
  intro effect effectMem node sent reaches
  rw [List.mem_singleton.mp effectMem] at reaches
  cases reaches
  exact other

theorem quiet_send {target : NodeId} {msg : Message} (other : msg.isRepair = false) :
    Quiet [.send target msg] := by
  intro effect effectMem node sent reaches
  rw [List.mem_singleton.mp effectMem] at reaches
  rcases reaches with ⟨_, rfl⟩
  exact other

variable {constants : Constants} {ctx : LocalContext} {transition : Transition}

/-- A transition of the main listener comes from one of its cues. -/
theorem mem_mainListener_iff :
    transition ∈ mainListener constants ctx ↔
      (∃ param ∈ listenSpeculate ctx, handleSpeculate ctx param = transition) ∨
      (∃ param ∈ listenSendSync ctx, handleSendSync ctx param = transition) ∨
      (∃ param ∈ listenFormCheckpoint constants ctx,
        handleFormCheckpoint ctx param = transition) ∨
      (∃ param ∈ listenEnterAlign constants ctx, handleEnterAlign ctx param = transition) ∨
      (∃ param ∈ listenConflictProof constants ctx,
        handleConflictProof ctx param = transition) ∨
      (∃ param ∈ listenChkptTimeout ctx, handleChkptTimeout ctx param = transition) ∨
      (∃ param ∈ listenTimeoutProof constants ctx, handleTimeoutProof ctx param = transition) ∨
      (∃ param ∈ listenEnterRepair ctx, handleEnterRepair ctx param = transition) ∨
      (∃ param ∈ listenStateRequest ctx, handleStateRequest ctx param = transition) ∨
      (∃ param ∈ listenStateReply ctx, handleStateReply ctx param = transition) ∨
      (∃ param ∈ listenBroadcastHistory constants ctx,
        handleBroadcastHistory ctx param = transition) ∨
      (∃ param ∈ listenRepairPrepare ctx, handleRepairPrepare ctx param = transition) ∨
      (∃ param ∈ listenRepairCommit constants ctx, handleRepairCommit ctx param = transition) ∨
      (∃ param ∈ listenApplyRepair constants ctx, handleApplyRepair ctx param = transition) ∨
      (∃ param ∈ listenRepairDoneCatchup constants ctx,
        handleRepairDoneCatchup ctx param = transition) ∨
      (∃ param ∈ listenViewChange ctx, handleViewChange ctx param = transition) := by
  simp only [mainListener, Finset.mem_union, Choreo.mem_cue_iff, or_assoc]

/-- Every transition of the main listener is a REPAIR step. -/
theorem repairStep_of_mem (transitionMem : transition ∈ mainListener constants ctx) :
    RepairStep constants ctx transition := by
  rcases mem_mainListener_iff.mp transitionMem with
    ⟨param, heard, rfl⟩ | ⟨param, heard, rfl⟩ | ⟨param, heard, rfl⟩ | ⟨param, heard, rfl⟩ |
    ⟨param, heard, rfl⟩ | ⟨param, heard, rfl⟩ | ⟨param, heard, rfl⟩ | ⟨param, heard, rfl⟩ |
    ⟨param, heard, rfl⟩ | ⟨param, heard, rfl⟩ | ⟨param, heard, rfl⟩ | ⟨param, heard, rfl⟩ |
    ⟨param, heard, rfl⟩ | ⟨param, heard, rfl⟩ | ⟨param, heard, rfl⟩ | ⟨param, heard, rfl⟩
  -- speculate
  · exact .quiet { QuietStep.refl ctx.state with } (quiet_broadcast rfl)
  -- send a SYNC
  · exact .quiet (.refl ctx.state) (quiet_broadcast rfl)
  -- form a checkpoint
  · exact .quiet { QuietStep.refl ctx.state with } (quiet_broadcast rfl)
  -- enter ALIGN
  · have speculative : ctx.state.phase = .speculative := by
      by_contra other
      simp [listenEnterAlign, other] at heard
    apply RepairStep.quiet _ (quiet_broadcast rfl)
    exact { QuietStep.refl ctx.state with phase := .inr ⟨rfl, by rw [speculative]; rfl⟩ }
  -- prove a conflict
  · apply RepairStep.enter _ (quiet_broadcast rfl)
    by_contra inside
    simp [listenConflictProof, inside] at heard
  -- the checkpoint timer
  · exact .quiet (.refl ctx.state) (quiet_broadcast rfl)
  -- prove a timeout
  · apply RepairStep.enter _ (quiet_broadcast rfl)
    by_contra inside
    simp [listenTimeoutProof, inside] at heard
  -- follow a proof
  · apply RepairStep.enter _ quiet_nil
    by_contra inside
    simp [listenEnterRepair, inside] at heard
  -- answer a STATE-REQUEST
  · exact .quiet (.refl ctx.state) (quiet_send rfl)
  -- take over a STATE-REPLY
  · have aligning : ctx.state.phase = .aligning := by
      by_contra other
      simp [listenStateReply, other] at heard
    apply RepairStep.quiet _ quiet_nil
    exact { QuietStep.refl ctx.state with phase := .inr ⟨rfl, by rw [aligning]; rfl⟩ }
  -- propose a history
  · simp only [listenBroadcastHistory] at heard
    split at heard
    · rename_i guard
      split at heard
      · rw [Finset.mem_singleton.mp heard]
        exact .propose guard.1 guard.2 (Int.natCast_nonneg _)
      · simp at heard
    · simp at heard
  -- vote for it
  · simp only [listenRepairPrepare] at heard
    split at heard
    · rename_i guard
      rw [Finset.mem_singleton.mp heard]
      exact .vote guard.1 guard.2
    · simp at heard
  -- lock the vote
  · simp only [listenRepairCommit] at heard
    split at heard
    · rename_i guard
      split at heard
      · rw [Finset.mem_singleton.mp heard]
        exact .lock guard
      · simp at heard
    · simp at heard
  -- apply the history
  · simp only [listenApplyRepair] at heard
    split at heard
    · rename_i guard
      split at heard
      · rw [Finset.mem_singleton.mp heard]
        exact .apply guard
      · simp at heard
    · simp at heard
  -- catch up
  · simp only [listenRepairDoneCatchup] at heard
    split at heard
    · rename_i guard
      split at heard
      · rw [Finset.mem_singleton.mp heard]
        apply RepairStep.catchup
        rcases guard with phase | phase | phase <;> rw [phase] <;> rfl
      · simp at heard
    · simp at heard
  -- change the view
  · simp only [listenViewChange] at heard
    split at heard
    · rename_i guard
      rw [Finset.mem_singleton.mp heard]
      exact .changeView guard.1
    · simp at heard

/-! ## Offered transitions -/

section Offered

variable {param : Int}

theorem enterRepair_mem_mainListener (heard : param ∈ listenEnterRepair ctx) :
    handleEnterRepair ctx param ∈ mainListener constants ctx := by
  apply mem_mainListener_iff.mpr
  iterate 7 right
  left
  exact ⟨param, heard, rfl⟩

theorem broadcastHistory_mem_mainListener
    (heard : param ∈ listenBroadcastHistory constants ctx) :
    handleBroadcastHistory ctx param ∈ mainListener constants ctx := by
  apply mem_mainListener_iff.mpr
  iterate 10 right
  left
  exact ⟨param, heard, rfl⟩

theorem repairPrepare_mem_mainListener (heard : param ∈ listenRepairPrepare ctx) :
    handleRepairPrepare ctx param ∈ mainListener constants ctx := by
  apply mem_mainListener_iff.mpr
  iterate 11 right
  left
  exact ⟨param, heard, rfl⟩

theorem repairCommit_mem_mainListener
    (heard : param ∈ listenRepairCommit constants ctx) :
    handleRepairCommit ctx param ∈ mainListener constants ctx := by
  apply mem_mainListener_iff.mpr
  iterate 12 right
  left
  exact ⟨param, heard, rfl⟩

theorem applyRepair_mem_mainListener
    (heard : param ∈ listenApplyRepair constants ctx) :
    handleApplyRepair ctx param ∈ mainListener constants ctx := by
  apply mem_mainListener_iff.mpr
  iterate 13 right
  left
  exact ⟨param, heard, rfl⟩

theorem repairDoneCatchup_mem_mainListener
    (heard : param ∈ listenRepairDoneCatchup constants ctx) :
    handleRepairDoneCatchup ctx param ∈ mainListener constants ctx := by
  apply mem_mainListener_iff.mpr
  iterate 14 right
  left
  exact ⟨param, heard, rfl⟩

theorem viewChange_mem_mainListener (heard : param ∈ listenViewChange ctx) :
    handleViewChange ctx param ∈ mainListener constants ctx := by
  apply mem_mainListener_iff.mpr
  iterate 15 right
  exact ⟨param, heard, rfl⟩

end Offered

end Raspen.Aspen
