import Raspen.Consensus.Provenance
import Raspen.Consensus.Rounds
import Raspen.Consensus.Storing

/-!
# Logs in step with their rounds

A replica that enters a round by applying a history starts from the log that history stands
for.  Until a state transfer or a catch-up comes between, it extends that log, and reports
nothing else to the clients.
-/

namespace Raspen

open Raspen.Transition

variable [EntryHasher]

/-- Whether the log follows the rounds after a cue: an applied history puts it in step, a
state transfer and a catch-up put it out of step. -/
def Cue.keepsStep (inStep : Bool) : Cue → Bool
  | .applyRepair _ => true
  | .stateReply _ | .repairDoneCatchup _ => false
  | _ => inStep

/-- The cues of a run, each with the state it fired on. -/
abbrev Firings := List (Replica MemKvStore × Cue)

omit [EntryHasher] in
def Firings.inStep (firings : Firings) : Bool :=
  firings.foldl (fun inStep firing => firing.2.keepsStep inStep) true

def Firings.provenance (firings : Firings) : Provenance :=
  firings.foldl (fun provenance firing => provenance.next firing.2) .start

def History.firings (history : History MemKvStore) : Firings :=
  history.calls.flatMap Call.cues

/-- The replica has started its round from an applied history, or is in its first round, and
has had no state transfer since. -/
def History.inStep (history : History MemKvStore) : Bool :=
  history.firings.inStep

omit [EntryHasher] in
theorem Firings.inStep_append (firings : Firings) (firing : Replica MemKvStore × Cue) :
    (firings ++ [firing]).inStep = firing.2.keepsStep firings.inStep := by
  simp [Firings.inStep]

omit [EntryHasher] in
theorem Firings.provenance_append (firings : Firings) (firing : Replica MemKvStore × Cue) :
    (firings ++ [firing]).provenance = firings.provenance.next firing.2 := by
  simp [Firings.provenance]

/-- The last index that a history installs. -/
def installedTop (historyHash : UInt64) : UInt64 :=
  if 0 < historyHash then historyHash - 1 else 0

/-- `base` is what `round` starts from: nothing in the first round, later the history that
was applied in the round before. -/
def Firings.RoundBase (firings : Firings) (round base : UInt64) : Prop :=
  (round = 0 ∧ base = 0) ∨ ∃ firing ∈ firings, ∃ historyHash,
    firing.2 = .applyRepair historyHash ∧ addU64 firing.1.round 1 = some round ∧
      base = installedTop historyHash

/-- Every SPEC-REPLY of `round` reports an entry of the log on `base`. -/
def Firings.RepliesOn (firings : Firings) (round base : UInt64) : Prop :=
  ∀ firing ∈ firings, firing.1.round = round → ∀ next effects,
    perform firing.1 firing.2 = some (next, effects) → ∀ effect ∈ effects,
      ∀ sender replyRound logIdx logHash,
        effect.message = .specReply sender replyRound logIdx logHash →
          logHash = EntryHasher.entryHash (expectedEntry base.toNat logIdx.toNat)

/-- How the log of a replica follows the cues. -/
structure Follows (firings : Firings) (replica : Replica MemKvStore) : Prop where
  explains : firings.provenance.Explains replica
  past : ∀ firing ∈ firings, firing.1.round ≤ replica.round
  base : firings.inStep = true → firings.RoundBase replica.round firings.provenance.base
  replies : firings.inStep = true → firings.RepliesOn replica.round firings.provenance.base

omit [EntryHasher] in
/-- A cue applies a history, gets the log out of step, or leaves both the step and the base
of the log alone. -/
theorem Cue.step_cases (cue : Cue) :
    (∃ historyHash, cue = .applyRepair historyHash) ∨ (∀ inStep, cue.keepsStep inStep = false) ∨
      (cue.isExit = false ∧ (∀ inStep, cue.keepsStep inStep = inStep) ∧
        ∀ provenance : Provenance, (provenance.next cue).base = provenance.base) := by
  cases cue <;> simp [Cue.keepsStep, Cue.isExit, Provenance.next]

omit [EntryHasher] in
theorem Firings.RoundBase.append {firings : Firings} {round base : UInt64}
    (holds : firings.RoundBase round base) (firing : Replica MemKvStore × Cue) :
    Firings.RoundBase (firings ++ [firing]) round base := by
  rcases holds with first | ⟨earlier, earlierMem, applied⟩
  · exact .inl first
  · exact .inr ⟨earlier, List.mem_append_left _ earlierMem, applied⟩

namespace Follows

variable {firings : Firings} {replica next : Replica MemKvStore} {cue : Cue} {input : Input}
  {effects : List Effect}

theorem store (follows : Follows firings replica) (msg : Message) :
    Follows firings (replica.store msg) := by
  constructor
  · exact follows.explains.of_same (by simp) (by simp) (by simp) (by simp)
  · rw [Replica.store_round]
    exact follows.past
  · rw [Replica.store_round]
    exact follows.base
  · rw [Replica.store_round]
    exact follows.replies

/-- After an applied history the round is new, and starts from that history. -/
theorem of_applyRepair (follows : Follows firings replica) {historyHash : UInt64}
    (performs : perform replica (.applyRepair historyHash) = some (next, effects)) :
    Firings.RoundBase (firings ++ [(replica, .applyRepair historyHash)]) next.round
        (firings.provenance.next (.applyRepair historyHash)).base ∧
      ∀ base, Firings.RepliesOn (firings ++ [(replica, .applyRepair historyHash)])
        next.round base := by
  rcases handleApplyRepair_eq_some performs with ⟨_, round, advanced, _, rfl, _⟩
  constructor
  · right
    refine ⟨_, List.mem_append_right _ List.mem_cons_self, historyHash, rfl, advanced, ?_⟩
    simp only [Provenance.next, installedTop]
    split <;> rfl
  · intro base firing firingMem sameRound
    have earlier : firing.1.round ≤ replica.round := by
      rcases List.mem_append.mp firingMem with old | new
      · exact follows.past firing old
      · rw [List.mem_singleton.mp new]
        exact UInt64.le_refl _
    rw [sameRound] at earlier
    exact absurd (lt_of_addU64_one advanced) (UInt64.not_lt.mpr earlier)

/-- Every handler keeps the log on its cues. -/
theorem of_perform (follows : Follows firings replica) (guard : Guard input replica cue)
    (performs : perform replica cue = some (next, effects)) :
    Follows (firings ++ [(replica, cue)]) next := by
  constructor
  · rw [Firings.provenance_append]
    exact follows.explains.of_perform guard performs
  · intro firing firingMem
    have grows := round_le_of_perform performs
    rcases List.mem_append.mp firingMem with old | new
    · exact UInt64.le_trans (follows.past firing old) grows
    · rw [List.mem_singleton.mp new]
      exact grows
  · rw [Firings.inStep_append, Firings.provenance_append]
    intro inStep
    rcases cue.step_cases with ⟨historyHash, rfl⟩ | strays | ⟨stays, keeps, sameBase⟩
    · exact (follows.of_applyRepair performs).1
    · rw [strays] at inStep
      contradiction
    · rw [keeps] at inStep
      rw [sameBase, (round_of_perform stays performs).1]
      exact (follows.base inStep).append _
  · rw [Firings.inStep_append, Firings.provenance_append]
    intro inStep
    rcases cue.step_cases with ⟨historyHash, rfl⟩ | strays | ⟨stays, keeps, sameBase⟩
    · exact (follows.of_applyRepair performs).2 _
    · rw [strays] at inStep
      contradiction
    · rw [keeps] at inStep
      rw [sameBase, (round_of_perform stays performs).1]
      intro firing firingMem sameRound
      rcases List.mem_append.mp firingMem with old | new
      · exact follows.replies inStep firing old sameRound
      · intro final emitted performed effect effectMem sender replyRound logIdx logHash isReply
        rw [List.mem_singleton.mp new] at performed
        exact follows.explains.specReply_of_perform guard performed effectMem isReply

end Follows

variable {config : Config} {nodeId : NodeId} {history : History MemKvStore}

theorem follows_of_localRun (run : LocalRun config nodeId MemKvStore.new history) :
    Follows history.firings history.replica := by
  apply run.fired_invariant (P := fun replica firings => Follows firings replica)
    (fun _ _ => True) (fun _ _ _ _ => trivial)
  · constructor
    · exact explains_new config nodeId
    · intro firing firingMem
      simp at firingMem
    · intro _
      exact .inl ⟨rfl, rfl⟩
    · intro _ firing firingMem
      simp at firingMem
  · intro replica firings msg follows
    exact follows.store msg
  · intro input replica cue next effects firings follows _ guard performs
    exact follows.of_perform guard performs

/-- What a replica in step has told the clients in its round. -/
theorem reply_of_inStep (run : LocalRun config nodeId MemKvStore.new history)
    (inStep : history.inStep = true) {sender : NodeId} {logIdx : UInt64} {logHash : Hash}
    (replied : .specReply sender history.replica.round logIdx logHash ∈ history.messages) :
    logHash = EntryHasher.entryHash
      (expectedEntry history.firings.provenance.base.toNat logIdx.toNat) := by
  rcases run.exists_firing_of_mem_messages replied with
    ⟨call, callMem, ⟨replica, cue⟩, fires, next, effects, performs, effect, effectMem, _, isReply⟩
  have emits := emits_of_perform performs effect effectMem
  rw [isReply] at emits
  have sameRound : replica.round = history.replica.round := by
    cases cue with
    | speculate idx =>
        rcases handleSpeculate_eq_some performs with ⟨_, _, _, _, _, _, _, rfl⟩
        rw [List.mem_singleton.mp effectMem] at isReply
        simp only [Effect.message, Message.specReply.injEq] at isReply
        exact isReply.2.1
    | _ => contradiction
  exact (follows_of_localRun run).replies inStep (replica, cue)
    (List.mem_flatMap.mpr ⟨call, callMem, fires⟩) sameRound next effects performs effect effectMem
    _ _ _ _ isReply

end Raspen
