import Raspen.Consensus.Applied
import Raspen.Consensus.Rounds

/-!
# What a COMMITTED-REPLY names

Applying a history replaces the log, but the reply to the clients carries the size the
log had before.  It names an entry of the new log only where the log has grown, and
replicas give the same reply only where their old logs had the same size.
-/

namespace Raspen

open Raspen.Transition

variable {S : Type}

/-- The log indices of the COMMITTED-REPLYs that a call broadcasts. -/
def Call.replied (call : Call S) : List UInt64 :=
  call.effects.filterMap fun effect =>
    match effect with
    | .broadcast (.committedReply _ _ logIdx) => some logIdx
    | _ => none

theorem Call.mem_replied_iff {call : Call S} {logIdx : UInt64} :
    logIdx ∈ call.replied ↔
      ∃ sender round, .broadcast (.committedReply sender round logIdx) ∈ call.effects := by
  rw [replied, List.mem_filterMap]
  constructor
  · rintro ⟨effect, effectMem, named⟩
    split at named
    · cases named
      exact ⟨_, _, effectMem⟩
    · contradiction
  · rintro ⟨sender, round, effectMem⟩
    exact ⟨_, effectMem, rfl⟩

variable [KvStoreOps S]

/-- A call leaves REPAIR at most once. -/
theorem exit_unique {call : Call S}
    (steps : step call.pre call.input = some (call.post, call.effects))
    {first second : Replica S × Cue} (firstFires : first ∈ call.cues)
    (secondFires : second ∈ call.cues) (firstExits : first.2.isExit = true)
    (secondExits : second.2.isExit = true) : first = second := by
  rcases call_cases steps with ⟨noExit, _⟩ | ⟨one, _⟩
  · rw [noExit first firstFires] at firstExits
    contradiction
  · exact eq_of_only one firstFires secondFires firstExits secondExits

/-- Only the application of a history replies to clients. -/
theorem applyRepair_of_emits {cue : Cue} {sender : NodeId} {round logIdx : UInt64}
    (emits : cue.emits (.committedReply sender round logIdx) = true) :
    ∃ historyHash, cue = .applyRepair historyHash := by
  cases cue with
  | applyRepair historyHash => exact ⟨historyHash, rfl⟩
  | _ => contradiction

/-- A call that applies a history replies with the size of the old log. -/
theorem mem_replied_of_applies {call : Call S}
    (steps : step call.pre call.input = some (call.post, call.effects)) {replica : Replica S}
    {historyHash : UInt64} (fires : (replica, .applyRepair historyHash) ∈ call.cues)
    (logIdx : UInt64) : logIdx ∈ call.replied ↔ logIdx = replica.kvSize := by
  have runs := steps
  rw [step_eq_runStages] at runs
  rw [Call.mem_replied_iff]
  constructor
  · rintro ⟨sender, round, effectMem⟩
    rcases exists_firing_of_mem_effects runs effectMem with
      ⟨⟨other, cue⟩, otherFires, next, effects, performs, emitted⟩
    obtain ⟨otherHash, rfl⟩ := applyRepair_of_emits (emits_of_perform performs _ emitted)
    have same := exit_unique steps fires otherFires rfl rfl
    cases same
    rcases handleApplyRepair_eq_some performs with ⟨_, _, _, _, _, rfl⟩
    rcases List.mem_cons.mp emitted with isDone | isReply
    · cases isDone
    · cases List.mem_singleton.mp isReply
      rfl
  · rintro rfl
    rcases performs_of_fired runs fires with ⟨next, effects, performs, emits⟩
    rcases handleApplyRepair_eq_some performs with ⟨_, _, _, _, _, rfl⟩
    exact ⟨_, _, emits _ (List.mem_cons_of_mem _ List.mem_cons_self)⟩

variable {config config' : Config} {nodeId nodeId' : NodeId} {kvStore kvStore' : S}
  {history history' : History S} {call call' : Call S} {replica replica' : Replica S}
  {historyHash : UInt64}

/-- The reply names an entry of the new log exactly when the old log was shorter, and two
replicas that apply the same history give the same reply exactly when their old logs had
the same size. -/
theorem committed_reply_iff (run : LocalRun config nodeId kvStore history)
    (callMem : call ∈ history.calls) (fires : (replica, .applyRepair historyHash) ∈ call.cues)
    (run' : LocalRun config' nodeId' kvStore' history') (callMem' : call' ∈ history'.calls)
    (fires' : (replica', .applyRepair historyHash) ∈ call'.cues) :
    ((∀ logIdx ∈ call.replied, logIdx < call.post.kvSize) ↔ replica.kvSize < historyHash) ∧
      ((∀ logIdx ∈ call.replied, ∀ logIdx' ∈ call'.replied, logIdx = logIdx') ↔
        replica.kvSize = replica'.kvSize) := by
  have steps := run.step_of_mem_calls callMem
  have steps' := run'.step_of_mem_calls callMem'
  simp only [mem_replied_of_applies steps fires, mem_replied_of_applies steps' fires',
    (applied_of_mem_cues steps fires).kvSize, forall_eq, and_self]

/-! ## Replies after diverged logs -/

section Diverged

attribute [local instance] plainHasher

/-- The requests a replica has served, then the agreement of two nodes on a history of
length 2. -/
def agreementInputs (requests : Nat) : List Input :=
  List.replicate requests (.message .greatest (.speculate "seq" 0 Hash.zero 0)) ++
    [.message .greatest (.conflictProof 0 0),
      .message .greatest (.repairHistory "r0" 0 0 2),
      .message .greatest (.repairPrepare "r0" 0 0 2),
      .message .greatest (.repairPrepare "r1" 0 0 2),
      .message .greatest (.repairCommit "r0" 0 0 2),
      .message .greatest (.repairCommit "r1" 0 0 2)]

/-- Node r0 has served two requests. -/
def aheadHistory : History MemKvStore :=
  (execute History.next (History.start (Config.forTest 2 0 0) "r0" MemKvStore.new)
    (agreementInputs 2)).get (by decide +kernel)

theorem localRun_aheadHistory :
    LocalRun (Config.forTest 2 0 0) "r0" MemKvStore.new aheadHistory :=
  reachable_of_execute (Option.some_get _).symm

/-- Node r1 has served none. -/
def behindHistory : History MemKvStore :=
  (execute History.next (History.start (Config.forTest 2 0 0) "r1" MemKvStore.new)
    (agreementInputs 0)).get (by decide +kernel)

theorem localRun_behindHistory :
    LocalRun (Config.forTest 2 0 0) "r1" MemKvStore.new behindHistory :=
  reachable_of_execute (Option.some_get _).symm

theorem exists_applies_aheadHistory :
    ∃ call ∈ aheadHistory.calls, ∃ firing ∈ call.cues, firing.2 = .applyRepair 2 ∧
      firing.1.round = 0 ∧ firing.1.kvSize = 2 := by
  decide +kernel

theorem exists_applies_behindHistory :
    ∃ call ∈ behindHistory.calls, ∃ firing ∈ call.cues, firing.2 = .applyRepair 2 ∧
      firing.1.round = 0 ∧ firing.1.kvSize = 0 := by
  decide +kernel

/-- Node r0 replies with index 2 of a log of size 2, node r1 with index 0. -/
theorem committed_reply_diverges :
    (¬∀ (config : Config) (nodeId : NodeId) (history : History MemKvStore),
      LocalRun config nodeId MemKvStore.new history → ∀ call ∈ history.calls,
        ∀ round historyHash, call.AppliesIn round historyHash →
          ∀ logIdx ∈ call.replied, logIdx < call.post.kvSize) ∧
      ¬∀ (config : Config) (nodeId nodeId' : NodeId) (history history' : History MemKvStore),
        LocalRun config nodeId MemKvStore.new history →
          LocalRun config nodeId' MemKvStore.new history' →
          ∀ call ∈ history.calls, ∀ call' ∈ history'.calls, ∀ round historyHash,
            call.AppliesIn round historyHash → call'.AppliesIn round historyHash →
              ∀ logIdx ∈ call.replied, ∀ logIdx' ∈ call'.replied, logIdx = logIdx' := by
  rcases exists_applies_aheadHistory with ⟨call, callMem, ⟨ahead, _⟩, fires, rfl, round, size⟩
  rcases exists_applies_behindHistory with
    ⟨call', callMem', ⟨behind, _⟩, fires', rfl, round', size'⟩
  have steps := localRun_aheadHistory.step_of_mem_calls callMem
  have steps' := localRun_behindHistory.step_of_mem_calls callMem'
  have replies := (mem_replied_of_applies steps fires _).mpr rfl
  have replies' := (mem_replied_of_applies steps' fires' _).mpr rfl
  constructor
  · intro inside
    have below := inside _ _ _ localRun_aheadHistory call callMem 0 2 ⟨_, fires, rfl, round⟩ _
      replies
    have size_eq : ahead.kvSize = 2 := size
    rw [(applied_of_mem_cues steps fires).kvSize, size_eq] at below
    exact UInt64.lt_irrefl 2 below
  · intro agree
    have same := agree _ _ _ _ _ localRun_aheadHistory localRun_behindHistory call callMem call'
      callMem' 0 2 ⟨_, fires, rfl, round⟩ ⟨_, fires', rfl, round'⟩ _ replies _ replies'
    have differs : (2 : UInt64) = 0 := size.symm.trans (same.trans size')
    exact absurd differs (by decide)

theorem committed_reply_iff_diverged :
    ∃ call ∈ aheadHistory.calls, ∃ ahead, (ahead, .applyRepair 2) ∈ call.cues ∧
      ∃ call' ∈ behindHistory.calls, ∃ behind, (behind, .applyRepair 2) ∈ call'.cues ∧
        ((∀ logIdx ∈ call.replied, logIdx < call.post.kvSize) ↔ ahead.kvSize < 2) ∧
          ((∀ logIdx ∈ call.replied, ∀ logIdx' ∈ call'.replied, logIdx = logIdx') ↔
            ahead.kvSize = behind.kvSize) := by
  rcases exists_applies_aheadHistory with ⟨call, callMem, ⟨ahead, _⟩, fires, rfl, _⟩
  rcases exists_applies_behindHistory with ⟨call', callMem', ⟨behind, _⟩, fires', rfl, _⟩
  exact ⟨call, callMem, ahead, fires, call', callMem', behind, fires',
    committed_reply_iff localRun_aheadHistory callMem fires localRun_behindHistory callMem'
      fires'⟩

end Diverged

end Raspen
