import Raspen.Consensus.History

/-!
# Rounds and views

A round ends in one place: the last two blocks of the dispatcher.  One of their
handlers advances the round and leaves REPAIR; the other then finds the replica
in Speculative phase.  Nothing else writes the round, and only the view timer
writes the view.
-/

namespace Raspen

open Raspen.Transition

variable {S : Type} [KvStoreOps S]

/-! ## What a handler writes -/

/-- Only the two exits write the round, and only they clear `in_repair`. -/
theorem round_of_perform {replica next : Replica S} {cue : Cue} {effects : List Effect}
    (stays : cue.isExit = false) (performs : perform replica cue = some (next, effects)) :
    next.round = replica.round ∧ (replica.inRepair = true → next.inRepair = true) := by
  cases cue with
  | speculate logIdx =>
      rcases handleSpeculate_eq_some performs with ⟨_, _, _, _, _, _, rfl, _⟩
      exact ⟨rfl, id⟩
  | stateReply chkptIdx =>
      rcases handleStateReply_eq_some performs with ⟨_, _, _, _, rfl, _⟩
      exact ⟨rfl, id⟩
  | viewChange newView =>
      rcases perform_viewChange_eq_some performs with ⟨view, _, rfl, _⟩
      exact ⟨rfl, id⟩
  | applyRepair | repairDoneCatchup => contradiction
  | conflictProof | timeoutProof | enterRepair =>
      cases performs
      exact ⟨rfl, fun _ => rfl⟩
  | _ =>
      cases performs
      exact ⟨rfl, id⟩

/-- Only the view change writes the view. -/
theorem view_of_perform {replica next : Replica S} {cue : Cue} {effects : List Effect}
    (other : ∀ newView, cue ≠ .viewChange newView)
    (performs : perform replica cue = some (next, effects)) : next.view = replica.view := by
  cases cue with
  | speculate logIdx =>
      rcases handleSpeculate_eq_some performs with ⟨_, _, _, _, _, _, rfl, _⟩
      rfl
  | stateReply chkptIdx =>
      rcases handleStateReply_eq_some performs with ⟨_, _, _, _, rfl, _⟩
      rfl
  | applyRepair historyHash =>
      rcases handleApplyRepair_eq_some performs with ⟨_, _, _, _, rfl, _⟩
      rfl
  | repairDoneCatchup round =>
      rcases perform_repairDoneCatchup_eq_some performs with ⟨_, _, rfl, _⟩
      rfl
  | viewChange newView => exact absurd rfl (other newView)
  | _ =>
      cases performs
      rfl

/-- Every handler that writes the start index or the size of the log keeps the
start inside the log. -/
theorem startIdx_le_of_perform {replica next : Replica S} {cue : Cue} {effects : List Effect}
    (inside : replica.startIdx ≤ replica.kvSize)
    (performs : perform replica cue = some (next, effects)) : next.startIdx ≤ next.kvSize := by
  cases cue with
  | speculate logIdx =>
      rcases handleSpeculate_eq_some performs with ⟨_, kvSize, _, _, _, grown, rfl, _⟩
      exact UInt64.le_trans inside (UInt64.le_of_lt (lt_of_addU64_one grown))
  | stateReply chkptIdx =>
      rcases handleStateReply_eq_some performs with ⟨_, kvSize, _, grown, rfl, _⟩
      exact UInt64.le_of_lt (lt_of_addU64_one grown)
  | applyRepair historyHash =>
      rcases handleApplyRepair_eq_some performs with ⟨_, _, _, _, rfl, _⟩
      exact UInt64.le_refl _
  | repairDoneCatchup round =>
      rcases perform_repairDoneCatchup_eq_some performs with ⟨_, _, rfl, _⟩
      exact UInt64.le_refl _
  | viewChange newView =>
      rcases perform_viewChange_eq_some performs with ⟨view, _, rfl, _⟩
      exact inside
  | _ =>
      cases performs
      exact inside

/-! ## Leaving REPAIR -/

/-- The state after an exit performed on `replica`. -/
structure Exited (replica post : Replica S) : Prop where
  round : addU64 replica.round 1 = some post.round
  phase : post.phase = .speculative
  inRepair : post.inRepair = false
  startIdx : post.startIdx = post.kvSize

theorem exited_of_perform {replica next : Replica S} {cue : Cue} {effects : List Effect}
    (isExit : cue.isExit = true) (performs : perform replica cue = some (next, effects)) :
    Exited replica next := by
  cases cue with
  | applyRepair historyHash =>
      rcases handleApplyRepair_eq_some performs with ⟨_, _, advanced, _, rfl, _⟩
      exact ⟨advanced, rfl, rfl, rfl⟩
  | repairDoneCatchup round =>
      rcases perform_repairDoneCatchup_eq_some performs with ⟨_, advanced, rfl, _⟩
      exact ⟨advanced, rfl, rfl, rfl⟩
  | _ => contradiction

omit [KvStoreOps S] in
theorem Exited.storeIf {replica post : Replica S} (exited : Exited replica post)
    (pattern : Message → Bool) (msg : Message) :
    Exited replica (post.storeIf pattern msg) where
  round := by simpa using exited.round
  phase := by simpa using exited.phase
  inRepair := (QuietStep.storeIf pattern msg post).inRepair.trans exited.inRepair
  startIdx := by simpa using exited.startIdx

/-- The exit blocks fire nothing, or exactly one of the two exits. -/
theorem exit_cases {msg : Message} {replica post : Replica S} {effects : List Effect}
    (run : runStages perform (exitStages msg) replica = some (post, effects)) :
    (fired perform (exitStages msg) replica = [] ∧ post.round = replica.round ∧
        post.inRepair = replica.inRepair) ∨
      ∃ firing, fired perform (exitStages msg) replica = [firing] ∧ firing.2.isExit = true ∧
        firing.1.round = replica.round ∧ Exited replica post := by
  rcases runStages_cons_eq_some_iff.mp run with ⟨middle, _, _, applying, rest, _⟩
  rcases runStages_cons_eq_some_iff.mp rest with ⟨final, _, _, finishing, ended, _⟩
  cases ended
  have committed := QuietStep.storeIf Message.isRepairCommit msg replica
  have finished := QuietStep.storeIf Message.isRepairDone msg middle
  have firstMem : onReceiveRepairCommit msg ∈ exitStages (S := S) msg := by simp [exitStages]
  have lastMem : onReceiveRepairDone msg ∈ exitStages (S := S) msg := by simp [exitStages]
  simp only [exitStages, fired, applying, finishing, List.append_nil]
  rcases Stage.run_cases applying with ⟨silent, rfl, _⟩ | ⟨cue, listens, performs⟩
  · rcases Stage.run_cases finishing with ⟨silent', rfl, _⟩ | ⟨cue, listens, performs⟩
    · left
      rw [silent, silent']
      exact ⟨rfl, finished.round.trans committed.round, finished.inRepair.trans committed.inRepair⟩
    · right
      have isExit := isExit_of_listen lastMem listens
      have exited := exited_of_perform isExit performs
      rw [silent, listens]
      have sameRound := finished.round.trans committed.round
      exact ⟨_, rfl, isExit, sameRound, { exited with round := sameRound ▸ exited.round }⟩
  · right
    have isExit := isExit_of_listen firstMem listens
    have exited := exited_of_perform isExit performs
    have exited : Exited replica middle :=
      { exited with round := committed.round ▸ exited.round }
    rcases Stage.run_cases finishing with ⟨silent', rfl, _⟩ | ⟨cue', listens', _⟩
    · rw [listens, silent']
      exact ⟨_, rfl, isExit, committed.round, exited.storeIf Message.isRepairDone msg⟩
    · rcases Option.map_eq_some_iff.mp listens' with ⟨oldRound, catchup, _⟩
      have speculative := (exited.storeIf Message.isRepairDone msg).phase
      have impossible := (canRepairDoneCatchup_of_speculative speculative).symm.trans catchup
      contradiction

/-! ## One call -/

/-- What a call does to the round and the view. -/
structure RoundStep (call : Call S) : Prop where
  round_cases : call.post.round.toNat = call.pre.round.toNat ∨
    call.post.round.toNat = call.pre.round.toNat + 1
  finishes_iff : call.post.round.toNat = call.pre.round.toNat + 1 ↔
    ∃ firing ∈ call.cues, firing.2.isExit = true
  finished : call.post.round.toNat = call.pre.round.toNat + 1 →
    (call.cues.filter (·.2.isExit)).length = 1 ∧ call.post.phase = .speculative ∧
      call.post.inRepair = false ∧ call.post.startIdx = call.post.kvSize
  stays : call.pre.inRepair = true → call.post.round = call.pre.round →
    call.post.inRepair = true
  changesView : call.input = .event .repairViewTimeout → call.pre.phase = .collectingLogs →
    call.post.view.toNat = call.pre.view.toNat + 1
  keepsView : ¬(call.input = .event .repairViewTimeout ∧ call.pre.phase = .collectingLogs) →
    call.post.view = call.pre.view

/-- A call without exits stays in its round and, once inside, in REPAIR. -/
theorem stays_of_noExit (input : Input) {replica post : Replica S} {effects : List Effect}
    {stages : List (ReplicaStage S)} (sub : stages ⊆ input.stages)
    (run : runStages perform stages replica = some (post, effects))
    (noExit : ∀ firing ∈ fired perform stages replica, firing.2.isExit = false) :
    post.round = replica.round ∧ (replica.inRepair = true → post.inRepair = true) := by
  have preserves : Preserves perform input.stages (fun _ cue => cue.isExit = false)
      fun state : Replica S => state.round = replica.round ∧
        (replica.inRepair = true → state.inRepair = true) := by
    apply preserves_stages
    · intro state msg _ holds
      have quiet := QuietStep.store state msg
      rw [quiet.round, quiet.inRepair]
      exact holds
    · intro state cue next emitted ⟨sameRound, inside⟩ stays _ performs
      obtain ⟨roundEq, kept⟩ := round_of_perform stays performs
      exact ⟨roundEq.trans sameRound, fun start => kept (inside start)⟩
  exact ((preserves.mono sub).of_runStages ⟨rfl, id⟩ noExit run).1

/-- The blocks before the exits. -/
theorem noExit_of_front {order : HashOrder} {msg : Message} {replica : Replica S} :
    ∀ firing ∈ fired perform (normalStages msg ++ voteStages order msg) replica,
      firing.2.isExit = false := by
  intro firing fires
  rcases exists_stage_of_mem_fired fires with ⟨stage, stageMem, listens⟩
  rcases List.mem_append.mp stageMem with normal | vote
  · have isNormal := isNormal_of_listen normal listens
    cases cue : firing.2 <;> simp_all [Cue.isNormal, Cue.isExit]
  · have isVote := isVote_of_listen vote listens
    cases cue : firing.2 <;> simp_all [Cue.isVote, Cue.isExit]

/-- A message call finishes its round by one exit, or stays in it. -/
theorem message_cases {order : HashOrder} {msg : Message} {replica post : Replica S}
    {effects : List Effect} (steps : processMessage order replica msg = some (post, effects)) :
    ((∀ firing ∈ fired perform (Input.message order msg).stages replica,
        firing.2.isExit = false) ∧ post.round = replica.round ∧
        (replica.inRepair = true → post.inRepair = true)) ∨
      (((fired perform (Input.message order msg).stages replica).filter
        (·.2.isExit)).length = 1 ∧ Exited replica post) := by
  have stages_eq : (Input.message order msg).stages =
      (normalStages msg ++ voteStages order msg) ++ exitStages (S := S) msg :=
    (List.append_assoc ..).symm
  have front_sub : normalStages msg ++ voteStages order msg ⊆
      (Input.message order msg).stages (S := S) := by
    rw [stages_eq]
    exact List.subset_append_left _ _
  have run : runStages perform ((normalStages msg ++ voteStages order msg) ++ exitStages msg)
      replica = some (post, effects) := stages_eq ▸ steps
  rcases runStages_append_eq_some_iff.mp run with ⟨middle, _, _, front, exits, _⟩
  obtain ⟨sameRound, inside⟩ := stays_of_noExit _ front_sub front noExit_of_front
  rw [stages_eq, fired_append front]
  rcases exit_cases exits with ⟨none, roundEq, inRepairEq⟩ | ⟨firing, one, isExit, _, exited⟩
  · left
    rw [none, List.append_nil]
    exact ⟨noExit_of_front, roundEq.trans sameRound, fun start => inRepairEq.trans (inside start)⟩
  · right
    have quietFront : (fired perform (normalStages msg ++ voteStages order msg) replica).filter
        (·.2.isExit) = [] := by
      rw [List.filter_eq_nil_iff]
      intro early earlyMem
      rw [noExit_of_front early earlyMem]
      exact Bool.false_ne_true
    rw [one, List.filter_append, quietFront]
    exact ⟨by simp [isExit], { exited with round := sameRound ▸ exited.round }⟩

/-- No timer leaves REPAIR. -/
theorem noExit_of_event {timer : Event} {replica : Replica S} :
    ∀ firing ∈ fired perform (eventStages timer) replica, firing.2.isExit = false := by
  intro firing fires
  rcases exists_stage_of_mem_fired fires with ⟨stage, stageMem, listens⟩
  have isTimer := isTimer_of_listen stageMem listens
  cases cue : firing.2 <;> simp_all [Cue.isTimer, Cue.isExit]

/-- A call finishes its round by one exit, or stays in it. -/
theorem call_cases {call : Call S}
    (steps : step call.pre call.input = some (call.post, call.effects)) :
    ((∀ firing ∈ call.cues, firing.2.isExit = false) ∧ call.post.round = call.pre.round ∧
        (call.pre.inRepair = true → call.post.inRepair = true)) ∨
      ((call.cues.filter (·.2.isExit)).length = 1 ∧ Exited call.pre call.post) := by
  obtain ⟨input, pre, post, effects⟩ := call
  cases input with
  | message order msg => exact message_cases steps
  | event timer =>
      left
      exact ⟨noExit_of_event,
        stays_of_noExit (.event timer) (List.Subset.refl _) steps noExit_of_event⟩

/-! ## The view -/

/-- Only the view timer raises a view change. -/
theorem viewTimeout_of_viewChange {input : Input} {replica : Replica S}
    {newView : Option UInt64} (guard : Guard input replica (.viewChange newView)) :
    input = .event .repairViewTimeout := by
  rcases guard with ⟨timer, rfl, guard⟩
  rw [(canViewChange_eq_some_iff.mp guard).2.1]

/-- On the view timer the other two blocks are silent. -/
theorem handleEvent_repairViewTimeout (replica : Replica S) :
    handleEvent replica .repairViewTimeout =
      if replica.phase = .collectingLogs then
        (addU64 replica.view 1).bind (handleViewChange replica)
      else some (replica, []) := by
  by_cases collecting : replica.phase = .collectingLogs
  · cases advanced : addU64 replica.view 1 <;>
      simp [handleEvent, eventStages, runStages, Stage.run, Stage.guard, canSendSyncOnEvent,
        canChkptTimeout, canViewChange, perform, handleViewChange, collecting, advanced]
  · simp [handleEvent, eventStages, runStages, Stage.run, Stage.guard, canSendSyncOnEvent,
      canChkptTimeout, canViewChange, collecting]

theorem view_of_repairViewTimeout {replica post : Replica S} {effects : List Effect}
    (steps : handleEvent replica .repairViewTimeout = some (post, effects)) :
    (replica.phase = .collectingLogs → post.view.toNat = replica.view.toNat + 1) ∧
      (replica.phase ≠ .collectingLogs → post.view = replica.view) := by
  rw [handleEvent_repairViewTimeout] at steps
  split at steps
  · rename_i collecting
    rcases Option.bind_eq_some_iff.mp steps with ⟨view, advanced, handled⟩
    cases handled
    exact ⟨fun _ => toNat_of_addU64 advanced, fun other => absurd collecting other⟩
  · rename_i other
    cases steps
    exact ⟨fun collecting => absurd collecting other, fun _ => rfl⟩

/-- No other input changes the view. -/
theorem view_of_step {input : Input} {replica post : Replica S} {effects : List Effect}
    (other : input ≠ .event .repairViewTimeout)
    (steps : step replica input = some (post, effects)) : post.view = replica.view := by
  have preserves : Preserves perform input.stages
      (fun _ cue => ∀ newView, cue ≠ .viewChange newView)
      fun state : Replica S => state.view = replica.view := by
    apply preserves_stages
    · intro state msg _ sameView
      exact (QuietStep.store state msg).view.trans sameView
    · intro state cue next emitted sameView keeps _ performs
      exact (view_of_perform keeps performs).trans sameView
  rw [step_eq_runStages] at steps
  refine (preserves.of_runStages rfl ?_ steps).1
  intro firing fires newView isChange
  rcases exists_stage_of_mem_fired fires with ⟨stage, stageMem, listens⟩
  rw [isChange] at listens
  exact other (viewTimeout_of_viewChange (guard_of_listen stageMem listens))

/-! ## Every call of a run -/

theorem RoundStep.of_step {call : Call S}
    (steps : step call.pre call.input = some (call.post, call.effects)) : RoundStep call := by
  have changesView : call.input = .event .repairViewTimeout → call.pre.phase = .collectingLogs →
      call.post.view.toNat = call.pre.view.toNat + 1 := by
    intro expired collecting
    rw [expired] at steps
    exact (view_of_repairViewTimeout steps).1 collecting
  have keepsView : ¬(call.input = .event .repairViewTimeout ∧
      call.pre.phase = .collectingLogs) → call.post.view = call.pre.view := by
    intro other
    by_cases expired : call.input = .event .repairViewTimeout
    · rw [expired] at steps
      exact (view_of_repairViewTimeout steps).2 fun collecting => other ⟨expired, collecting⟩
    · exact view_of_step expired steps
  rcases call_cases steps with ⟨noExit, roundEq, inside⟩ | ⟨one, exited⟩
  · have sameRound : call.post.round.toNat = call.pre.round.toNat := by rw [roundEq]
    have notAdvanced : call.post.round.toNat ≠ call.pre.round.toNat + 1 := by omega
    exact
      { round_cases := .inl sameRound
        finishes_iff := by
          constructor
          · intro advanced
            exact absurd advanced notAdvanced
          · rintro ⟨firing, fires, isExit⟩
            rw [noExit firing fires] at isExit
            contradiction
        finished := fun advanced => absurd advanced notAdvanced
        stays := fun start _ => inside start
        changesView := changesView
        keepsView := keepsView }
  · have advanced : call.post.round.toNat = call.pre.round.toNat + 1 := by
      simpa using toNat_of_addU64 exited.round
    have someExit : ∃ firing ∈ call.cues, firing.2.isExit = true := by
      obtain ⟨firing, firingMem⟩ := List.exists_mem_of_length_pos (one ▸ Nat.one_pos)
      rcases List.mem_filter.mp firingMem with ⟨fires, isExit⟩
      exact ⟨firing, fires, isExit⟩
    exact
      { round_cases := .inr advanced
        finishes_iff := ⟨fun _ => someExit, fun _ => advanced⟩
        finished := fun _ => ⟨one, exited.phase, exited.inRepair, exited.startIdx⟩
        stays := by
          intro _ same
          rw [same] at advanced
          omega
        changesView := changesView
        keepsView := keepsView }

variable {config : Config} {nodeId : NodeId} {kvStore : S} {history : History S}

/-- The start index never passes the size of the log. -/
theorem startIdx_le_of_localRun (run : LocalRun config nodeId kvStore history) :
    history.replica.startIdx ≤ history.replica.kvSize := by
  refine (run.of_preserves (P := fun replica : Replica S => replica.startIdx ≤ replica.kvSize)
    (fun _ _ => True) ?_
    (fun _ _ _ _ => trivial) (UInt64.le_refl _)).1
  intro call _
  apply preserves_stages
  · intro replica msg _ inside
    simpa using inside
  · intro replica cue next effects inside _ _ performs
    exact startIdx_le_of_perform inside performs

/-- REPAIR is left only by completing a round, and nothing else changes the
round. -/
theorem round_step (run : LocalRun config nodeId kvStore history) :
    history.replica.startIdx ≤ history.replica.kvSize ∧
      ∀ call ∈ history.calls, RoundStep call :=
  ⟨startIdx_le_of_localRun run, fun _ callMem => .of_step (run.step_of_mem_calls callMem)⟩

section Repaired

attribute [local instance] plainHasher

/-- The last call of the run finishes the round. -/
theorem round_step_repaired :
    (∃ call ∈ repairedHistory.calls, call.post.round.toNat = call.pre.round.toNat + 1) ∧
      repairedHistory.replica.startIdx ≤ repairedHistory.replica.kvSize ∧
      ∀ call ∈ repairedHistory.calls, RoundStep call :=
  ⟨by decide +kernel, round_step localRun_repairedHistory⟩

end Repaired

end Raspen
