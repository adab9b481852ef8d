import Raspen.Node.Core
import Raspen.Storage.MemKvStore

/-!
# A node is its machine

However callers and actor interleave, the machine processes the accepted inputs one by one
in the order in which they were accepted, and the transport gets what the machine on its own
would return.
-/

namespace Raspen

open Raspen.Transition

namespace Node

variable {C M W : Type} [Mpsc C ReplicaInput] [StateMachine M] [Transport W]

/-- The inputs that wait for the actor. -/
def waiting (node : Node C M W) : List ReplicaInput :=
  (Mpsc.view node.channel).queue

/-- The number of handles. -/
def handles (node : Node C M W) : Nat :=
  (Mpsc.view node.channel).senders

/-- How far a node has come: `served` are the inputs that the machine has processed,
`batches` what it returned for them.  The input after them may be in the hands of the actor,
or the machine panicked on it. -/
structure Progress (machine : M) (world : W) (capacity : Nat)
    (steps : List (ServiceStep ReplicaInput HashOrder)) (node : Node C M W)
    (served : List (ReplicaInput × HashOrder)) (batches : List (List Effect)) : Prop where
  accepted : acceptedItems steps = served.map Prod.fst ++ (node.worker.held ++ node.waiting)
  machine_eq : runMachine machine served = some (node.worker.state.1, batches)
  world_eq : node.worker.state.2 = executeAll world batches
  bounded : node.waiting.length ≤ capacity
  finished : ∀ state, node.worker = .done state → node.waiting = [] ∧ node.handles = 0
  panicked : ∀ state input, node.worker = .lost state input →
    ∃ order, StateMachine.feed state.1 (input, order) = none

/-- What the actor has executed is what the machine returns on its own. -/
theorem machine_of_execute {machine : M} {world : W} {jobs : List (ReplicaInput × HashOrder)}
    {state : M × W} (run : execute handle (machine, world) jobs = some state) :
    ∃ batches, runMachine machine jobs = some (state.1, batches) ∧
      state.2 = executeAll world batches := by
  rw [execute_handle_eq, Option.map_eq_some_iff] at run
  obtain ⟨⟨final, batches⟩, runs, rfl⟩ := run
  exact ⟨batches, runs, rfl⟩

theorem handle_eq_none_iff {state : M × W} {job : ReplicaInput × HashOrder} :
    handle state job = none ↔ StateMachine.feed state.1 job = none :=
  Option.map_eq_none_iff

variable {machine : M} {world : W} {capacity : Nat} {first node later : Node C M W}
  {steps rest : List (ServiceStep ReplicaInput HashOrder)}

/-- The books of a node. -/
theorem exists_progress_of_accounts {log : List (ReplicaInput × HashOrder)}
    (sound : Service.Sound handle capacity node)
    (accounts : Service.Accounts handle (machine, world) steps log node) :
    ∃ batches, Progress machine world capacity steps node log batches := by
  obtain ⟨batches, machine_eq, world_eq⟩ := machine_of_execute accounts.served
  refine ⟨batches, ?_⟩
  constructor
  · exact accounts.accepted
  · exact machine_eq
  · exact world_eq
  · exact sound.fits
  · exact sound.drained
  · intro state input isLost
    obtain ⟨order, fails⟩ := sound.broken state input isLost
    exact ⟨order, handle_eq_none_iff.mp fails⟩

/-- In every run of a node over any machine, transport and channel, the machine has
processed the accepted inputs in order, up to the one in the hands of the actor and the at
most `capacity` that wait, and the transport has got exactly the effects. -/
theorem runs_machine (started : start machine world capacity = some first)
    (run : execute next first steps = some node) :
    ∃ served batches, Progress machine world capacity steps node served batches := by
  obtain ⟨sound, served, accounts⟩ := Service.exists_accounts (isNew_of_start started) run
  exact ⟨served, exists_progress_of_accounts sound accounts⟩

/-! ## The end of a node -/

/-- A panic stops a node for good.  From then on nothing is accepted any more, and the
transport has got what the machine returns for the inputs before the fatal one, on which it
panics, and nothing for the inputs behind, at most `capacity` of them. -/
theorem panic_stops (started : start machine world capacity = some first)
    (run : execute next first steps = some node) {state : M × W} {fatal : ReplicaInput}
    (panicked : node.worker = .lost state fatal)
    (onwards : execute next node rest = some later) :
    later.worker.isRunning = false ∧ acceptedItems rest = [] ∧
      ∃ served batches dropped, acceptedItems steps = served.map Prod.fst ++ fatal :: dropped ∧
        dropped.length ≤ capacity ∧ later.worker.state.2 = executeAll world batches ∧
          ∃ middle order, runMachine machine served = some (middle, batches) ∧
            StateMachine.feed middle (fatal, order) = none := by
  obtain ⟨sound, served, accounts⟩ := Service.exists_accounts (isNew_of_start started) run
  obtain ⟨batches, progress⟩ := exists_progress_of_accounts sound accounts
  have ended : node.worker.isRunning = false := by
    rw [panicked]
    rfl
  obtain ⟨stays, refused⟩ :=
    Service.ended_of_execute ended (sound.isOpen.trans ended) onwards
  have accepted := progress.accepted
  have machine_eq := progress.machine_eq
  rcases progress.panicked state fatal panicked with ⟨order, fails⟩
  rw [panicked] at accepted machine_eq
  rw [stays]
  constructor
  · exact ended
  constructor
  · exact refused
  · exact ⟨served, batches, node.waiting, accepted, progress.bounded, progress.world_eq, state.1,
      order, machine_eq, fails⟩

/-- Without handles a node comes to its end: it takes at most two more steps for each input
that waits and two for the actor, and where it can take no more, the machine has processed
every input that was ever accepted, or it has panicked. -/
theorem shuts_down (started : start machine world capacity = some first)
    (run : execute next first steps = some node) (abandoned : node.handles = 0)
    (onwards : execute next node rest = some later) :
    rest.length ≤ 2 * node.waiting.length + 2 ∧
      ((∀ action, next later action = none) →
        (∃ state served batches, later.worker = .done state ∧
          acceptedItems (steps ++ rest) = served.map Prod.fst ∧
            runMachine machine served = some (state.1, batches) ∧
              state.2 = executeAll world batches) ∨
          ∃ state fatal, later.worker = .lost state fatal) := by
  obtain ⟨short, nobody⟩ := Service.length_le_remaining abandoned onwards
  have bound := Service.remaining_le node
  constructor
  · exact (Nat.le_add_right _ _).trans (short.trans bound)
  · intro stuck
    have run' : execute next first (steps ++ rest) = some later := by
      rw [execute_append, run]
      exact onwards
    obtain ⟨sound, served, accounts⟩ := Service.exists_accounts (isNew_of_start started) run'
    obtain ⟨batches, progress⟩ := exists_progress_of_accounts sound accounts
    cases running : later.worker.isRunning with
    | true =>
        obtain ⟨action, after, taken⟩ :=
          Service.exists_step_of_running handle .greatest nobody running
        rw [← next, stuck action] at taken
        contradiction
    | false =>
        cases isWorker : later.worker with
        | idle state => simp [isWorker, Worker.isRunning] at running
        | busy state input => simp [isWorker, Worker.isRunning] at running
        | lost state fatal => exact .inr ⟨state, fatal, rfl⟩
        | done state =>
            have accepted := progress.accepted
            have machine_eq := progress.machine_eq
            have world_eq := progress.world_eq
            rw [isWorker, (progress.finished state isWorker).1] at accepted
            rw [isWorker] at machine_eq world_eq
            refine .inl ⟨state, served, batches, rfl, ?_, machine_eq, world_eq⟩
            rw [accepted]
            exact List.append_nil _

end Node

/-! ## A node on its own -/

section Solo

attribute [local instance] plainHasher

/-- A node of a one-node cluster, with two slots. -/
def soloNode : Node (Fifo ReplicaInput) (Replica MemKvStore) RecordingTransport :=
  (Node.start (Replica.new (Config.forTest 1 0 0) "r0" MemKvStore.new) ⟨[]⟩ 2).get (by decide)

theorem start_soloNode :
    Node.start (Replica.new (Config.forTest 1 0 0) "r0" MemKvStore.new) ⟨[]⟩ 2 =
      some soloNode :=
  (Option.some_get _).symm

/-- Two inputs are submitted, the handle is dropped, and the actor is at the first input. -/
def droppedSteps : List (ServiceStep ReplicaInput HashOrder) :=
  [.submit (.message (.speculate "seq" 0 Hash.zero 0)), .receive, .submit (.event .syncTimeout),
    .drop]

def droppedNode : Node (Fifo ReplicaInput) (Replica MemKvStore) RecordingTransport :=
  (execute Node.next soloNode droppedSteps).get (by decide +kernel)

theorem execute_droppedSteps : execute Node.next soloNode droppedSteps = some droppedNode :=
  (Option.some_get _).symm

theorem runs_machine_dropped :
    ∃ served batches, Node.Progress (Replica.new (Config.forTest 1 0 0) "r0" MemKvStore.new) ⟨[]⟩ 2
      droppedSteps droppedNode served batches :=
  Node.runs_machine start_soloNode execute_droppedSteps

/-- The actor serves both inputs and ends. -/
def drainingSteps : List (ServiceStep ReplicaInput HashOrder) :=
  [.work .greatest, .receive, .work .greatest, .finish]

def drainedNode : Node (Fifo ReplicaInput) (Replica MemKvStore) RecordingTransport :=
  (execute Node.next droppedNode drainingSteps).get (by decide +kernel)

theorem shuts_down_drained :
    drainingSteps.length ≤ 2 * droppedNode.waiting.length + 2 ∧
      ((∀ action, Node.next drainedNode action = none) →
        (∃ state served batches, drainedNode.worker = .done state ∧
          acceptedItems (droppedSteps ++ drainingSteps) = served.map Prod.fst ∧
            runMachine (Replica.new (Config.forTest 1 0 0) "r0" MemKvStore.new) served =
                some (state.1, batches) ∧
              state.2 = executeAll (⟨[]⟩ : RecordingTransport) batches) ∨
          ∃ state fatal, drainedNode.worker = .lost state fatal) :=
  Node.shuts_down start_soloNode execute_droppedSteps (by decide +kernel)
    (Option.some_get _).symm

/-- A replica that aligns is sent the last index, with another input behind. -/
def fatalSteps : List (ServiceStep ReplicaInput HashOrder) :=
  [.submit (.message (.checkpoint "r0" 0 0 Hash.zero)), .receive, .work .greatest,
    .submit (.message (.stateReply "r0" 0xffffffffffffffff Hash.zero)), .receive,
    .submit (.event .syncTimeout), .work .greatest]

def lostNode : Node (Fifo ReplicaInput) (Replica MemKvStore) RecordingTransport :=
  (execute Node.next soloNode fatalSteps).get (by decide +kernel)

theorem panic_stops_lost :
    ∃ later, execute Node.next lostNode [.refuse (.event .syncTimeout), .drop] = some later ∧
      later.worker.isRunning = false ∧
      acceptedItems ([.refuse (.event .syncTimeout), .drop] :
        List (ServiceStep ReplicaInput HashOrder)) = [] ∧
      ∃ served batches dropped,
        acceptedItems fatalSteps = served.map Prod.fst ++
            .message (.stateReply "r0" 0xffffffffffffffff Hash.zero) :: dropped ∧
          dropped.length ≤ 2 ∧ later.worker.state.2 = executeAll ⟨[]⟩ batches ∧
            ∃ middle order,
              runMachine (Replica.new (Config.forTest 1 0 0) "r0" MemKvStore.new) served =
                  some (middle, batches) ∧
                StateMachine.feed middle
                  (.message (.stateReply "r0" 0xffffffffffffffff Hash.zero), order) = none := by
  have panicked : lostNode.worker = .lost lostNode.worker.state
      (.message (.stateReply "r0" 0xffffffffffffffff Hash.zero)) :=
    Worker.eq_lost_of_held (by decide +kernel) (by decide +kernel)
  refine ⟨(execute Node.next lostNode [.refuse (.event .syncTimeout), .drop]).get
    (by decide +kernel), (Option.some_get _).symm, ?_⟩
  exact Node.panic_stops start_soloNode (Option.some_get _).symm panicked
    (Option.some_get _).symm

end Solo

end Raspen
