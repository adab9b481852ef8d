import Raspen.Consensus.Standing
import Raspen.Network.Specification
import Raspen.Transition.Refinement

/-!
# The cluster conforms to the specification

One REPAIR move of the code is matched by the specification in an open environment.  A
call is a chain of such moves and a run a sequence of calls, so the specification goes
along with whole runs: what it says of REPAIR it says of the code.  Only when a replica
catches up the two part, as the code counts a node once for each history that the node
says it has applied.
-/

namespace Raspen

open Raspen.Transition

variable {S : Type}

def Cue.isCatchup : Cue → Bool
  | .repairDoneCatchup _ => true
  | _ => false

/-- A handler that catches up has the DONEs of `f + 1` nodes, not only `f + 1` DONEs. -/
def Cue.CountsNodes (f : Nat) (replica : Replica S) (cue : Cue) : Prop :=
  cue.isCatchup = true →
    f + 1 ≤ (senders (Message.isRepairDoneAt replica.view replica.round)
      replica.repairDoneMsgs).card

instance (f : Nat) (replica : Replica S) (cue : Cue) : Decidable (cue.CountsNodes f replica) :=
  inferInstanceAs (Decidable (_ → _))

variable [KvStoreOps S]

/-- In every call of the run, whoever catches up has the DONEs of `f + 1` nodes. -/
def Network.CountsNodes (cluster : Cluster) (network : Network S) : Prop :=
  ∀ node ∈ cluster.correct, ∀ call ∈ (network node).calls, ∀ firing ∈ call.cues,
    firing.2.CountsNodes cluster.config.f firing.1

instance (cluster : Cluster) (network : Network S) : Decidable (network.CountsNodes cluster) :=
  inferInstanceAs (Decidable (∀ node ∈ cluster.correct, _))

/-- A handler that leaves the round in silence is the catch-up. -/
theorem countsNodes_of_silent {f : Nat} {replica next : Replica S} {cue : Cue}
    (counts : cue.CountsNodes f replica) (performs : perform replica cue = some (next, []))
    (leaves : next.round ≠ replica.round) :
    f + 1 ≤ (senders (Message.isRepairDoneAt replica.view replica.round)
      replica.repairDoneMsgs).card := by
  cases exits : cue.isExit with
  | false => exact absurd (round_of_perform exits performs).1 leaves
  | true =>
      cases cue with
      | repairDoneCatchup round => exact counts rfl
      | applyRepair historyHash =>
          rcases handleApplyRepair_eq_some performs with ⟨_, _, _, _, _, emits⟩
          contradiction
      | _ => contradiction

/-! ## One call -/

namespace Network

/-- The replicas amid a call of `v`. -/
def replicasAmid (network : Network S) (v : NodeId) (replica : Replica S) : NodeId → Replica S :=
  Function.update (fun node => (network node).replica) v replica

/-- What has been sent amid a call of `v` that has emitted `trace`. -/
def sentAmid (network : Network S) (v : NodeId) (trace : List Effect) : NodeId → List Message :=
  Function.update (fun node => (network node).messages) v
    ((network v).messages ++ trace.map Effect.message)

omit [KvStoreOps S]

variable (network : Network S) (v : NodeId)

@[simp]
theorem replicasAmid_self (replica : Replica S) : network.replicasAmid v replica v = replica :=
  Function.update_self ..

@[simp]
theorem update_replicasAmid (replica next : Replica S) :
    Function.update (network.replicasAmid v replica) v next = network.replicasAmid v next :=
  Function.update_idem ..

@[simp]
theorem update_sentAmid (trace effects : List Effect) :
    Function.update (network.sentAmid v trace) v
        (network.sentAmid v trace v ++ effects.map Effect.message) =
      network.sentAmid v (trace ++ effects) := by
  simp [sentAmid]

/-- Before the call has done anything. -/
theorem replicasAmid_start :
    network.replicasAmid v (network v).replica = fun node => (network node).replica :=
  Function.update_eq_self ..

theorem sentAmid_start : network.sentAmid v [] = fun node => (network node).messages := by
  simp [sentAmid]

/-- After the call has been recorded. -/
theorem replicasAmid_end (call : Call S) :
    network.replicasAmid v call.post = fun node =>
      (Function.update network v ⟨call.post, (network v).calls ++ [call]⟩ node).replica :=
  (Function.comp_update History.replica network v ⟨call.post, (network v).calls ++ [call]⟩).symm

theorem sentAmid_end (call : Call S) :
    network.sentAmid v call.effects = fun node =>
      (Function.update network v ⟨call.post, (network v).calls ++ [call]⟩ node).messages := by
  have recorded : History.messages ⟨call.post, (network v).calls ++ [call]⟩ =
      (network v).messages ++ call.effects.map Effect.message := by
    simp [History.messages, History.effects]
  rw [sentAmid, ← recorded]
  exact (Function.comp_update History.messages network v
    ⟨call.post, (network v).calls ++ [call]⟩).symm

end Network

/-- Amid a call of `v`, after it has emitted `trace`, the specification has gone along. -/
structure GoesAlong (cluster : Cluster) (network : Network S) (start : Aspen.GlobalContext)
    (v : NodeId) (replica : Replica S) (trace : List Effect) : Prop where
  nodeId : replica.nodeId = v
  config : replica.config = cluster.config
  stored : ∀ msg, replica.Stores msg → Network.Authentic cluster network msg
  shadowed : ∃ env, Reachable cluster.specification start env ∧
    Shadows cluster (network.replicasAmid v replica) (network.sentAmid v trace) env

namespace GoesAlong

variable {cluster : Cluster} {network : Network S} {start : Aspen.GlobalContext} {v : NodeId}
  {replica next : Replica S} {trace effects : List Effect}

omit [KvStoreOps S] in
/-- The delivered message is stored. -/
theorem store (along : GoesAlong cluster network start v replica trace) {msg : Message}
    (authentic : Network.Authentic cluster network msg) :
    GoesAlong cluster network start v (replica.store msg) trace where
  nodeId := (QuietStep.store replica msg).nodeId.trans along.nodeId
  config := (QuietStep.store replica msg).config.trans along.config
  stored other held := by
    rcases stores_store held with rfl | old
    · exact authentic
    · exact along.stored other old
  shadowed := by
    obtain ⟨env, reached, shadows⟩ := along.shadowed
    have quiet : QuietStep (network.replicasAmid v replica v) (replica.store msg) := by
      rw [Network.replicasAmid_self]
      exact .store replica msg
    have stores := shadows.quiet quiet quiet_nil
    rw [Network.update_replicasAmid, Network.update_sentAmid, List.append_nil] at stores
    exact ⟨env, reached, stores⟩

omit [KvStoreOps S] in
/-- What is authentic before the call is vouched for amid it. -/
theorem vouched (along : GoesAlong cluster network start v replica trace) (msg : Message)
    (held : replica.Stores msg) (ballot : Ballot) (carries : msg.ballot = some ballot) :
    Vouched cluster (network.sentAmid v trace) ballot := by
  obtain ⟨member, emitted⟩ :=
    along.stored msg held ballot.sender (Message.sender_of_ballot carries)
  refine ⟨member, fun correct => ⟨msg, ?_, carries⟩⟩
  by_cases same : ballot.sender = v
  · rw [same, Network.sentAmid, Function.update_self]
    exact List.mem_append_left _ (same ▸ emitted correct)
  · rw [Network.sentAmid, Function.update_of_ne same]
    exact emitted correct

/-- A handler runs. -/
theorem perform (along : GoesAlong cluster network start v replica trace)
    (small : cluster.config.n < 2 ^ 64) (correct : v ∈ cluster.correct) {input : Input} {cue : Cue}
    (guard : Guard input replica cue) (counts : cue.CountsNodes cluster.config.f replica)
    (performs : Raspen.perform replica cue = some (next, effects)) :
    GoesAlong cluster network start v next (trace ++ effects) where
  nodeId := (nodeId_of_repairMove (.of_perform guard performs)).trans along.nodeId
  config := (repairCommitMsgs_of_repairMove (.of_perform guard performs)).1.trans along.config
  stored msg held := by
    rw [Replica.Stores, inbox_of_perform performs] at held
    exact along.stored msg held
  shadowed := by
    obtain ⟨env, reached, shadows⟩ := along.shadowed
    have move : RepairMove replica next effects := .of_perform guard performs
    have distinct : effects = [] → next.round ≠ replica.round →
        cluster.config.f + 1 ≤ (senders (Message.isRepairDoneAt replica.view replica.round)
          replica.repairDoneMsgs).card := by
      rintro rfl leaves
      exact countsNodes_of_silent counts performs leaves
    rw [← Network.replicasAmid_self network v replica] at move distinct
    obtain ⟨later, reached, moved⟩ := shadows.step small reached correct
      (by simpa using along.nodeId) (by simpa using along.config)
      (by simpa using along.vouched) move distinct
    rw [Network.update_replicasAmid, Network.update_sentAmid] at moved
    exact ⟨later, reached, moved⟩

end GoesAlong

/-- The specification goes along with a call. -/
theorem goesAlong_of_step {cluster : Cluster} {network : Network S} {start : Aspen.GlobalContext}
    {v : NodeId} {input : Input} {replica post : Replica S} {effects : List Effect}
    (small : cluster.config.n < 2 ^ 64) (correct : v ∈ cluster.correct)
    (admitted : ∀ msg ∈ input.delivered, Network.Authentic cluster network msg)
    (along : GoesAlong cluster network start v replica [])
    (counts : ∀ firing ∈ fired perform input.stages replica,
      firing.2.CountsNodes cluster.config.f firing.1)
    (steps : step replica input = some (post, effects)) :
    GoesAlong cluster network start v post effects := by
  rw [step_eq_runStages] at steps
  refine emitted_invariant (P := GoesAlong cluster network start v) ?_ ?_ counts along steps
  · intro stage s trace stageMem along
    rcases store_of_mem_stages stageMem s with same | ⟨order, msg, rfl, stored⟩
    · rw [same]
      exact along
    · rw [stored]
      exact along.store (admitted msg rfl)
  · intro stage s cue next emitted trace stageMem along counts listens performs
    exact along.perform small correct (guard_of_listen stageMem listens) counts performs

/-! ## Whole runs -/

omit [KvStoreOps S] in
/-- Nothing has happened yet, here and there. -/
theorem shadows_start (cluster : Cluster) (stores : NodeId → S) :
    Shadows cluster (fun node => (Network.start cluster stores node).replica)
      (fun node => (Network.start cluster stores node).messages)
      (Aspen.init cluster.constants) where
  processId _ := rfl
  states node _ := {
    round := rfl
    view := rfl
    inRepair := rfl
    proposed := rfl
    phase := .inl rfl }
  ballots ballot correct receiver := by
    constructor
    · rintro ⟨msg, msgMem, carries⟩
      -- only faulty nodes have sent anything
      have faulty : ballot.sender ∈ cluster.byzantine := by
        rcases Aspen.mem_allByzantineMessages msgMem with ⟨node, faulty, ⟨_, rfl⟩ | ⟨_, rfl⟩⟩ <;>
        · cases carries
          exact faulty
      exact absurd faulty (Finset.mem_sdiff.mp correct).2
    · rintro ⟨msg, msgMem, _⟩
      contradiction

namespace Network

/-- Before a call, the specification is where the cluster is. -/
theorem Run.goesAlong {cluster : Cluster} {stores : NodeId → S} {network : Network S}
    {env : Aspen.GlobalContext} (run : Run cluster stores network)
    (shadows : Shadows cluster (fun node => (network node).replica)
      (fun node => (network node).messages) env) (v : NodeId) :
    GoesAlong cluster network env v (network v).replica [] where
  nodeId := nodeId_of_visits (run.localRun v) (.inl rfl)
  config := config_of_localRun (run.localRun v)
  stored _ held := run.authentic_of_stores v held
  shadowed := by
    refine ⟨env, .refl, ?_⟩
    rw [replicasAmid_start, sentAmid_start]
    exact shadows

/-- Calls stay recorded. -/
theorem CountsNodes.of_next {cluster : Cluster} {network later : Network S}
    {action : NodeId × Input} (counts : CountsNodes cluster later)
    (steps : next cluster network action = some later) : CountsNodes cluster network := by
  obtain ⟨_, _, history, served, rfl⟩ := next_eq_some_iff.mp steps
  obtain ⟨post, effects, _, rfl⟩ := History.next_eq_some_iff.mp served
  intro node correct call callMem
  apply counts node correct
  by_cases same : node = action.1
  · subst same
    rw [Function.update_self]
    exact List.mem_append_left _ callMem
  · rw [Function.update_of_ne same]
    exact callMem

/-- In an open environment the specification simulates the cluster, as long as catch-ups
count nodes. -/
theorem simulation (cluster : Cluster) (stores : NodeId → S) (small : cluster.config.n < 2 ^ 64) :
    Simulation (next cluster) (start cluster stores) cluster.specification
      (Aspen.init cluster.constants) fun network env =>
        CountsNodes cluster network →
          Shadows cluster (fun node => (network node).replica)
            (fun node => (network node).messages) env where
  starts := fun _ => shadows_start cluster stores
  step := by
    intro network later env action run shadowed steps
    by_cases counts : CountsNodes cluster later
    · have shadows := shadowed (counts.of_next steps)
      obtain ⟨correct, admitted, history, served, rfl⟩ := next_eq_some_iff.mp steps
      obtain ⟨post, effects, performed, rfl⟩ := History.next_eq_some_iff.mp served
      let call : Call S := ⟨action.2, (network action.1).replica, post, effects⟩
      have last : ∀ firing ∈ call.cues, firing.2.CountsNodes cluster.config.f firing.1 := by
        apply counts action.1 correct call
        rw [Function.update_self]
        exact List.mem_append_right _ List.mem_cons_self
      have after : GoesAlong cluster network env action.1 call.post call.effects :=
        goesAlong_of_step small correct admitted (Run.goesAlong run shadows action.1) last
          performed
      obtain ⟨arrived, reached, shadows⟩ := after.shadowed
      rw [replicasAmid_end, sentAmid_end] at shadows
      exact ⟨arrived, reached, fun _ => shadows⟩
    · exact ⟨env, .refl, fun counted => absurd counted counts⟩

/-- Every run of the cluster in which catch-ups count nodes is matched by a run of the
specification in an open environment: in the end correct replicas are in the same phase,
view and round, for the same history, and have cast the same ballots. -/
theorem runs_in_specification {cluster : Cluster} {stores : NodeId → S} {network : Network S}
    (small : cluster.config.n < 2 ^ 64) (run : Run cluster stores network)
    (counts : CountsNodes cluster network) :
    ∃ env, Reachable cluster.specification (Aspen.init cluster.constants) env ∧
      Shadows cluster (fun node => (network node).replica) (fun node => (network node).messages)
        env := by
  have simulates := simulation cluster stores small
  obtain ⟨env, reached, shadowed⟩ := simulates.exists_reachable .refl simulates.starts run
  exact ⟨env, reached, shadowed counts⟩

end Network

/-! ## A replica that catches up -/

section FourNodes

attribute [local instance] plainHasher

/-- The third correct replica was slow, and hears of the history when the other two have
applied it. -/
def catchingUpActions : List (NodeId × Input) :=
  [deliver (.conflictProof 0 0) "r3",
    deliver (.repairHistory "r0" 0 0 1) "r3",
    deliver (.repairDone "r1" 0 0 1) "r3",
    deliver (.repairDone "r2" 0 0 1) "r3"]

def caughtUpNetwork : Network MemKvStore :=
  (execute (Network.next fourNodes) appliedNetwork catchingUpActions).get (by decide +kernel)

theorem run_caughtUpNetwork :
    Network.Run fourNodes (fun _ => MemKvStore.new) caughtUpNetwork :=
  run_appliedNetwork.trans (reachable_of_execute (Option.some_get _).symm)

theorem runs_in_specification_caughtUp :
    (∀ node ∈ fourNodes.correct, (caughtUpNetwork node).replica.round = 1) ∧
      ∃ env, Reachable fourNodes.specification (Aspen.init fourNodes.constants) env ∧
        Shadows fourNodes (fun node => (caughtUpNetwork node).replica)
          (fun node => (caughtUpNetwork node).messages) env :=
  ⟨by decide +kernel,
    Network.runs_in_specification (by decide) run_caughtUpNetwork (by decide +kernel)⟩

/-- The Byzantine leader says twice that it is done, with two histories. -/
def hastyNetwork : Network MemKvStore :=
  (execute (Network.next fourNodes) (Network.start fourNodes fun _ => MemKvStore.new)
    [deliver (.conflictProof 0 0) "r3",
      deliver (.repairHistory "r0" 0 0 1) "r3",
      deliver (.repairDone "r0" 0 0 1) "r3",
      deliver (.repairDone "r0" 0 0 2) "r3"]).get (by decide +kernel)

example : (hastyNetwork "r3").replica.round = 1 ∧ ¬Network.CountsNodes fourNodes hastyNetwork := by
  decide +kernel

end FourNodes

end Raspen
