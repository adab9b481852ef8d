import Raspen.Consensus.RepairMove
import Raspen.Storage.MemKvStore
import Raspen.Transition.Core
import Raspen.Transition.Pass

/-!
# Runs of one replica

A history is the replica together with the record of every call it has served.
Inputs are unconstrained: any message with any field values, any timer, any
iteration order.  A panicking call has no successor, as the actor stops there.
-/

namespace Raspen

open Raspen.Transition

variable {S : Type}

/-- The record of one call. -/
structure Call (S : Type) where
  input : Input
  pre : Replica S
  post : Replica S
  effects : List Effect

/-- A replica and the calls it has served, oldest first. -/
structure History (S : Type) where
  replica : Replica S
  calls : List (Call S)

namespace History

/-- The history of a replica that has just been created. -/
def start (config : Config) (nodeId : NodeId) (kvStore : S) : History S :=
  ⟨Replica.new config nodeId kvStore, []⟩

/-- Every effect the replica has emitted, in order. -/
def effects (history : History S) : List Effect :=
  history.calls.flatMap Call.effects

/-- Every message the replica has put on the network. -/
def messages (history : History S) : List Message :=
  history.effects.map Effect.message

variable [KvStoreOps S]

/-- Serve one more input. -/
def next (history : History S) (input : Input) : Option (History S) :=
  (step history.replica input).map fun outcome =>
    ⟨outcome.1, history.calls ++ [⟨input, history.replica, outcome.1, outcome.2⟩]⟩

theorem next_eq_some_iff {history later : History S} {input : Input} :
    history.next input = some later ↔
      ∃ post effects, step history.replica input = some (post, effects) ∧
        later = ⟨post, history.calls ++ [⟨input, history.replica, post, effects⟩]⟩ := by
  simp only [next, Option.map_eq_some_iff, Prod.exists]
  constructor
  · rintro ⟨post, effects, steps, rfl⟩
    exact ⟨post, effects, steps, rfl⟩
  · rintro ⟨post, effects, steps, rfl⟩
    exact ⟨post, effects, steps, rfl⟩

end History

variable [KvStoreOps S]

/-- The handlers that ran in a call, each with the state it ran on. -/
def Call.cues (call : Call S) : List (Replica S × Cue) :=
  fired perform call.input.stages call.pre

/-- `history` is a run of the replica created from `config`, `nodeId` and
`kvStore`. -/
def LocalRun (config : Config) (nodeId : NodeId) (kvStore : S) (history : History S) : Prop :=
  Reachable History.next (History.start config nodeId kvStore) history

namespace LocalRun

variable {config : Config} {nodeId : NodeId} {kvStore : S} {history : History S}

/-- Induction over the calls of a run. -/
theorem call_induction {P : History S → Prop} (run : LocalRun config nodeId kvStore history)
    (new : P (History.start config nodeId kvStore))
    (call : ∀ {earlier : History S} {input : Input} {post : Replica S} {effects : List Effect},
      LocalRun config nodeId kvStore earlier → P earlier →
      step earlier.replica input = some (post, effects) →
      P ⟨post, earlier.calls ++ [⟨input, earlier.replica, post, effects⟩]⟩) :
    P history := by
  apply run.invariant new
  intro earlier later input reached holds served
  rcases History.next_eq_some_iff.mp served with ⟨post, effects, steps, rfl⟩
  exact call reached holds steps

/-- What every move preserves, every run preserves.  The property sees all effects
emitted so far. -/
theorem move_invariant {P : Replica S → List Effect → Prop}
    (run : LocalRun config nodeId kvStore history)
    (new : P (Replica.new config nodeId kvStore) [])
    (move : ∀ {input : Input} {replica next : Replica S} {trace effects : List Effect},
      P replica trace → Move input replica next effects → P next (trace ++ effects)) :
    P history.replica history.effects := by
  apply run.call_induction (P := fun history => P history.replica history.effects) new
  intro earlier input post effects _ holds steps
  have kept := (moves_of_step steps).preserves move holds
  simpa [History.effects] using kept

/-- What every REPAIR move preserves, every run preserves. -/
theorem repair_invariant {P : Replica S → List Effect → Prop}
    (run : LocalRun config nodeId kvStore history)
    (new : P (Replica.new config nodeId kvStore) [])
    (move : ∀ {replica next : Replica S} {trace effects : List Effect},
      P replica trace → RepairMove replica next effects → P next (trace ++ effects)) :
    P history.replica history.effects :=
  run.move_invariant new fun holds step => move holds (.of_move step)

/-- A recorded call really took place. -/
theorem step_of_mem_calls (run : LocalRun config nodeId kvStore history) {call : Call S}
    (callMem : call ∈ history.calls) :
    step call.pre call.input = some (call.post, call.effects) := by
  revert callMem
  apply run.call_induction
    (P := fun history => call ∈ history.calls →
      step call.pre call.input = some (call.post, call.effects))
  · intro callMem
    simp [History.start] at callMem
  · intro earlier input post effects _ ih steps callMem
    rcases List.mem_append.mp callMem with old | new
    · exact ih old
    · rw [List.mem_singleton.mp new]
      exact steps

end LocalRun

/-! ## Rules over the cues of a run -/

/-- Every handler of a call ran on a state that passed its guard. -/
theorem Call.guard_of_mem_cues {call : Call S} {firing : Replica S × Cue}
    (fires : firing ∈ call.cues) : Guard call.input firing.1 firing.2 := by
  rcases exists_stage_of_mem_fired fires with ⟨stage, stageMem, listens⟩
  exact guard_of_listen stageMem listens

/-- A property of the replica and of the cues fired so far that storing and every
allowed cue with its guard keep is kept by a call of allowed cues. -/
theorem call_invariant {P : Replica S → List (Replica S × Cue) → Prop} (call : Call S)
    (allowed : Replica S → Cue → Prop) {past : List (Replica S × Cue)}
    (store : ∀ {replica trace} (msg : Message), P replica trace → P (replica.store msg) trace)
    (cue : ∀ {input replica cue next effects trace}, P replica trace → allowed replica cue →
      Guard input replica cue → perform replica cue = some (next, effects) →
      P next (trace ++ [(replica, cue)]))
    (fires : ∀ firing ∈ call.cues, allowed firing.1 firing.2) (holds : P call.pre past)
    (steps : step call.pre call.input = some (call.post, call.effects)) :
    P call.post (past ++ call.cues) := by
  rw [step_eq_runStages] at steps
  refine fired_invariant ?_ ?_ fires holds steps
  · intro stage replica trace stageMem before
    rcases store_of_mem_stages stageMem replica with same | ⟨_, msg, _, stored⟩
    · rw [same]
      exact before
    · rw [stored]
      exact store msg before
  · intro stage replica heard next emitted trace stageMem before isAllowed listens performs
    exact cue before isAllowed (guard_of_listen stageMem listens) performs

/-- What storing and every allowed cue keep, a run of allowed cues keeps. -/
theorem LocalRun.fired_invariant {config : Config} {nodeId : NodeId} {kvStore : S}
    {history : History S} {P : Replica S → List (Replica S × Cue) → Prop}
    (run : LocalRun config nodeId kvStore history) (allowed : Replica S → Cue → Prop)
    (fires : ∀ call ∈ history.calls, ∀ firing ∈ call.cues, allowed firing.1 firing.2)
    (new : P (Replica.new config nodeId kvStore) [])
    (store : ∀ {replica trace} (msg : Message), P replica trace → P (replica.store msg) trace)
    (cue : ∀ {input replica cue next effects trace}, P replica trace → allowed replica cue →
      Guard input replica cue → perform replica cue = some (next, effects) →
      P next (trace ++ [(replica, cue)])) :
    P history.replica (history.calls.flatMap Call.cues) := by
  revert fires
  apply run.call_induction (P := fun history =>
    (∀ call ∈ history.calls, ∀ firing ∈ call.cues, allowed firing.1 firing.2) →
      P history.replica (history.calls.flatMap Call.cues)) (fun _ => new)
  intro earlier input post effects _ ih steps fires
  have before := ih fun call callMem => fires call (List.mem_append_left _ callMem)
  rw [List.flatMap_append, List.flatMap_singleton]
  exact call_invariant ⟨input, earlier.replica, post, effects⟩ allowed store cue
    (fires _ (List.mem_append_right _ List.mem_cons_self)) before steps

/-- What storing the delivered message and every allowed cue with its guard
preserve, the stages of an input preserve. -/
theorem preserves_stages {input : Input} {allowed : Replica S → Cue → Prop}
    {P : Replica S → Prop}
    (store : ∀ {replica} (msg : Message), input.delivered = some msg → P replica →
      P (replica.store msg))
    (cue : ∀ {replica cue next effects}, P replica → allowed replica cue →
      Guard input replica cue → perform replica cue = some (next, effects) → P next) :
    Preserves perform input.stages allowed P where
  store stage stageMem replica holds := by
    rcases store_of_mem_stages stageMem replica with same | ⟨_, msg, rfl, stored⟩
    · rw [same]
      exact holds
    · rw [stored]
      exact store msg rfl holds
  cue _ stageMem _ _ _ _ holds isAllowed listens performs :=
    cue holds isAllowed (guard_of_listen stageMem listens) performs

/-- What the stages of every call preserve while all cues are allowed holds after
every call, and on every state on which a cue fired. -/
theorem LocalRun.of_preserves {config : Config} {nodeId : NodeId} {kvStore : S}
    {history : History S} {P : Replica S → Prop}
    (run : LocalRun config nodeId kvStore history) (allowed : Replica S → Cue → Prop)
    (preserves : ∀ call ∈ history.calls, Preserves perform call.input.stages allowed P)
    (fires : ∀ call ∈ history.calls, ∀ firing ∈ call.cues, allowed firing.1 firing.2)
    (new : P (Replica.new config nodeId kvStore)) :
    P history.replica ∧ ∀ call ∈ history.calls,
      P call.pre ∧ P call.post ∧ ∀ firing ∈ call.cues, P firing.1 := by
  revert preserves fires
  apply run.call_induction (P := fun history =>
    (∀ call ∈ history.calls, Preserves perform call.input.stages allowed P) →
      (∀ call ∈ history.calls, ∀ firing ∈ call.cues, allowed firing.1 firing.2) →
      P history.replica ∧ ∀ call ∈ history.calls,
        P call.pre ∧ P call.post ∧ ∀ firing ∈ call.cues, P firing.1)
  · intro _ _
    exact ⟨new, by simp [History.start]⟩
  · intro earlier input post effects _ ih steps preserves fires
    obtain ⟨holds, past⟩ := ih (fun call callMem => preserves call (List.mem_append_left _ callMem))
      fun call callMem => fires call (List.mem_append_left _ callMem)
    rw [step_eq_runStages] at steps
    obtain ⟨holdsPost, holdsFired⟩ :=
      (preserves _ (List.mem_append_right _ List.mem_cons_self)).of_runStages holds
        (fires _ (List.mem_append_right _ List.mem_cons_self)) steps
    constructor
    · exact holdsPost
    · intro call callMem
      rcases List.mem_append.mp callMem with old | new
      · exact past call old
      · rw [List.mem_singleton.mp new]
        exact ⟨holds, holdsPost, holdsFired⟩

/-- The states a run passes through where something can be observed: those on which a
handler ran, and the one it has arrived at. -/
def History.Visits (history : History S) (replica : Replica S) : Prop :=
  replica = history.replica ∨ ∃ call ∈ history.calls, ∃ cue, (replica, cue) ∈ call.cues

/-- What storing a message and every cue with its guard preserve holds in every state
a run visits. -/
theorem LocalRun.visits_invariant {config : Config} {nodeId : NodeId} {kvStore : S}
    {history : History S} {P : Replica S → Prop} (run : LocalRun config nodeId kvStore history)
    (new : P (Replica.new config nodeId kvStore))
    (store : ∀ {replica} (msg : Message), P replica → P (replica.store msg))
    (cue : ∀ {input replica cue next effects}, P replica → Guard input replica cue →
      perform replica cue = some (next, effects) → P next)
    {replica : Replica S} (visits : history.Visits replica) : P replica := by
  obtain ⟨holds, past⟩ := run.of_preserves (fun _ _ => True)
    (fun call _ => preserves_stages (fun msg _ => store msg)
      fun holds _ guard performs => cue holds guard performs)
    (fun _ _ _ _ => trivial) new
  rcases visits with rfl | ⟨call, callMem, cue, fires⟩
  · exact holds
  · exact (past call callMem).2.2 _ fires

/-- What the stages of all further inputs preserve holds in every state that serving them
passes through. -/
theorem History.execute_preserves {P : Replica S → Prop} {inputs : List Input}
    {history later : History S}
    (preserves : ∀ input ∈ inputs,
      Preserves perform (input.stages (S := S)) (fun _ _ => True) P)
    (holds : P history.replica) (runs : execute History.next history inputs = some later) :
    P later.replica ∧ ∃ served, later.calls = history.calls ++ served ∧
      ∀ call ∈ served, ∀ firing ∈ call.cues, P firing.1 := by
  induction inputs generalizing history with
  | nil =>
      cases runs
      exact ⟨holds, [], by simp, by simp⟩
  | cons input rest ih =>
      rcases Option.bind_eq_some_iff.mp runs with ⟨middle, served, tail⟩
      rcases History.next_eq_some_iff.mp served with ⟨post, effects, steps, rfl⟩
      rw [step_eq_runStages] at steps
      obtain ⟨kept, fired⟩ := (preserves input List.mem_cons_self).of_runStages holds
        (fun _ _ => trivial) steps
      obtain ⟨final, others, calls_eq, past⟩ :=
        ih (fun other otherMem => preserves other (List.mem_cons_of_mem _ otherMem)) kept tail
      constructor
      · exact final
      · refine ⟨⟨input, history.replica, post, effects⟩ :: others, ?_, ?_⟩
        · rw [calls_eq, List.append_assoc, List.singleton_append]
        · intro call callMem
          rcases List.mem_cons.mp callMem with rfl | inOthers
          · exact fired
          · exact past call inOthers

/-! ## The order of the cues -/

/-- The place of a cue in the dispatchers. -/
def Cue.place : Cue → Nat
  | .speculate _ => 0
  | .sendSync _ => 1
  | .formCheckpoint _ => 2
  | .enterAlign _ => 3
  | .conflictProof _ => 4
  | .timeoutProof _ => 5
  | .enterRepair _ => 6
  | .stateRequest _ => 7
  | .stateReply _ => 8
  | .broadcastHistory _ => 9
  | .repairPrepare _ => 10
  | .repairCommit _ => 11
  | .applyRepair _ => 12
  | .repairDoneCatchup _ => 13
  | .chkptTimeout _ => 14
  | .viewChange _ => 15

/-- A stage that maps the value of its guard to a cue raises cues of one place. -/
theorem place_of_listen {α : Type} {guard : Option α} {cue : α → Cue} {heard : Cue}
    (listens : guard.map cue = some heard) {place : Nat}
    (placed : ∀ value, (cue value).place = place) : heard.place = place := by
  rcases Option.map_eq_some_iff.mp listens with ⟨value, _, rfl⟩
  exact placed value

/-- The stages of an input come in the order of their cues. -/
theorem pairwise_stages (input : Input) :
    (input.stages (S := S)).Pairwise (Stage.Before Cue.place) := by
  cases input with
  | message order msg =>
      apply pairwise_before [0, 1, 2, 3, 4, 5, 6, 7, 8, 9, 10, 11, 12, 13]
      · simp only [Input.stages, normalStages, voteStages, exitStages, List.cons_append,
          List.nil_append, List.forall₂_cons, List.forall₂_nil_left_iff, and_true]
        refine ⟨?_, ?_, ?_, ?_, ?_, ?_, ?_, ?_, ?_, ?_, ?_, ?_, ?_, ?_⟩ <;>
          exact fun _ _ listens => place_of_listen listens fun _ => rfl
      · decide
  | event timer =>
      apply pairwise_before [1, 14, 15]
      · simp only [Input.stages, eventStages, List.forall₂_cons, List.forall₂_nil_left_iff,
          and_true]
        refine ⟨?_, ?_, ?_⟩ <;>
          exact fun _ _ listens => place_of_listen listens fun _ => rfl
      · decide

/-- Every message of a run was emitted by a handler of one of its calls. -/
theorem LocalRun.exists_firing_of_mem_messages {config : Config} {nodeId : NodeId} {kvStore : S}
    {history : History S} (run : LocalRun config nodeId kvStore history) {msg : Message}
    (emitted : msg ∈ history.messages) :
    ∃ call ∈ history.calls, ∃ firing ∈ call.cues, ∃ next effects,
      perform firing.1 firing.2 = some (next, effects) ∧
        ∃ effect ∈ effects, effect ∈ call.effects ∧ effect.message = msg := by
  rcases List.mem_map.mp emitted with ⟨effect, effectMem, isMsg⟩
  rcases List.mem_flatMap.mp effectMem with ⟨call, callMem, inCall⟩
  have steps := run.step_of_mem_calls callMem
  rw [step_eq_runStages] at steps
  rcases exists_firing_of_mem_effects steps inCall with
    ⟨firing, fires, next, effects, performs, emits⟩
  exact ⟨call, callMem, firing, fires, next, effects, performs, effect, emits, inCall, isMsg⟩

/-- The calls of a run are its inputs. -/
theorem History.inputs_of_execute {inputs : List Input} {history later : History S}
    (runs : execute History.next history inputs = some later) :
    later.calls.map Call.input = history.calls.map Call.input ++ inputs := by
  apply execute_induction (P := fun inputs later =>
    later.calls.map Call.input = history.calls.map Call.input ++ inputs) runs (by simp)
  intro before earlier input later same served
  rcases History.next_eq_some_iff.mp served with ⟨post, effects, _, rfl⟩
  rw [List.map_append, same, List.append_assoc]
  rfl

omit [KvStoreOps S] in
/-- Effects of a recorded call are effects of the history. -/
theorem History.mem_effects_of_call {history : History S} {call : Call S} {effect : Effect}
    (callMem : call ∈ history.calls) (effectMem : effect ∈ call.effects) :
    effect ∈ history.effects :=
  List.mem_flatMap.mpr ⟨call, callMem, effectMem⟩

/-! ## A run of one node -/

section Solo

attribute [local instance] plainHasher

/-- A one-node cluster enters REPAIR, changes the view, and collects its own
votes up to the commit. -/
def soloInputs : List Input :=
  [.message .greatest (.speculate "seq" 0 Hash.zero 0),
    .message .greatest (.conflictProof 0 0),
    .event .repairViewTimeout,
    .message .greatest (.logMsg "r0" 1 0 Hash.zero),
    .message .greatest (.repairHistory "r0" 1 0 1),
    .message .greatest (.repairPrepare "r0" 1 0 1)]

def soloHistory : History MemKvStore :=
  (execute History.next (History.start (Config.forTest 1 0 0) "r0" MemKvStore.new)
    soloInputs).get (by decide +kernel)

theorem localRun_soloHistory :
    LocalRun (Config.forTest 1 0 0) "r0" MemKvStore.new soloHistory :=
  reachable_of_execute (Option.some_get _).symm

/-- It commits its history and is back in Speculative, in round 1. -/
def repairedHistory : History MemKvStore :=
  (execute History.next (History.start (Config.forTest 1 0 0) "r0" MemKvStore.new)
    (soloInputs ++ [.message .greatest (.repairCommit "r0" 1 0 1)])).get (by decide +kernel)

theorem localRun_repairedHistory :
    LocalRun (Config.forTest 1 0 0) "r0" MemKvStore.new repairedHistory :=
  reachable_of_execute (Option.some_get _).symm

end Solo

end Raspen
