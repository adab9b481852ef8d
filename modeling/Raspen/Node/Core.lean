import Raspen.Consensus.Replica
import Raspen.Transition.Service

/-!
# The replica actor

A node wraps a state machine into an actor.  Its handles put inputs into a bounded
channel; the actor takes them out one by one, lets the machine process them and passes the
effects to the transport.
-/

namespace Raspen

open Raspen.Transition

/-- The synchronous protocol state machine; `none` is a panic.  The iteration order is
what a call happens to see of the hash sets. -/
class StateMachine (M : Type) where
  processMessage : HashOrder → M → Message → Option (M × List Effect)
  handleEvent : M → Event → Option (M × List Effect)

instance {S : Type} [KvStoreOps S] : StateMachine (Replica S) where
  processMessage := processMessage
  handleEvent := handleEvent

/-- Where effects are carried out; `W` is what they change. -/
class Transport (W : Type) where
  broadcast : W → Message → W
  send : W → NodeId → Message → W
  execute : W → List Effect → W := fun world effects =>
    effects.foldl (fun world effect =>
      match effect with
      | .broadcast msg => broadcast world msg
      | .send target msg => send world target msg) world

/-- The transport of the tests records whole batches. -/
structure RecordingTransport where
  effects : List Effect
  deriving DecidableEq

instance : Transport RecordingTransport where
  broadcast world msg := ⟨world.effects ++ [.broadcast msg]⟩
  send world target msg := ⟨world.effects ++ [.send target msg]⟩
  execute world batch := ⟨world.effects ++ batch⟩

/-- What the handles put into the channel. -/
inductive ReplicaInput
  | message (msg : Message)
  | event (timer : Event)
  deriving DecidableEq

namespace ReplicaInput

/-- The input of the machine when a call happens to see an iteration order. -/
def seen (input : ReplicaInput) (order : HashOrder) : Input :=
  match input with
  | message msg => .message order msg
  | event timer => .event timer

end ReplicaInput

/-- Feed one input to a machine. -/
def StateMachine.feed {M : Type} [StateMachine M] (machine : M) (job : ReplicaInput × HashOrder) :
    Option (M × List Effect) :=
  match job.1 with
  | .message msg => processMessage job.2 machine msg
  | .event timer => handleEvent machine timer

/-- A node: the channel of its inputs, and the actor with its machine and its transport. -/
abbrev Node (C M W : Type) := Service C (M × W) ReplicaInput

namespace Node

variable {C M W : Type} [Mpsc C ReplicaInput] [StateMachine M] [Transport W]

/-- Create the channel and spawn the actor.  A channel without slots panics. -/
def start (machine : M) (world : W) (capacity : Nat) : Option (Node C M W) :=
  (Mpsc.channel capacity).map fun channel => ⟨channel, .idle (machine, world)⟩

/-- The body of the loop, once an input has been received. -/
def handle (state : M × W) (job : ReplicaInput × HashOrder) : Option (M × W) :=
  (StateMachine.feed state.1 job).map fun outcome =>
    (outcome.1,
      if outcome.2.isEmpty then state.2 else Transport.execute state.2 outcome.2)

/-- One step of a caller or of the actor. -/
def next (node : Node C M W) (action : ServiceStep ReplicaInput HashOrder) :
    Option (Node C M W) :=
  node.step handle action

omit [StateMachine M] [Transport W] in
theorem isNew_of_start {machine : M} {world : W} {capacity : Nat} {node : Node C M W}
    (started : start machine world capacity = some node) :
    Service.IsNew (machine, world) capacity node := by
  rcases Option.map_eq_some_iff.mp started with ⟨channel, created, rfl⟩
  refine ⟨rfl, ?_⟩
  have viewed := Mpsc.view_channel (C := C) capacity
  rw [created, Option.map_some, Fifo.channel] at viewed
  split at viewed
  · contradiction
  · exact Option.some.inj viewed

end Node

/-! ## The machine without the actor -/

/-- A machine on its own: it processes inputs one after the other and returns the effects
of each. -/
def runMachine {M : Type} [StateMachine M] :
    M → List (ReplicaInput × HashOrder) → Option (M × List (List Effect))
  | machine, [] => some (machine, [])
  | machine, job :: rest => do
      let (middle, effects) ← StateMachine.feed machine job
      let (final, batches) ← runMachine middle rest
      pure (final, effects :: batches)

/-- The batches that reach the transport, in order. -/
def executeAll {W : Type} [Transport W] (world : W) (batches : List (List Effect)) : W :=
  (batches.filter (!·.isEmpty)).foldl Transport.execute world

section Machine

variable {M W : Type} [StateMachine M] [Transport W]

/-- The actor's body is the machine, with the effects passed on. -/
theorem execute_handle_eq (machine : M) (world : W) (jobs : List (ReplicaInput × HashOrder)) :
    execute Node.handle (machine, world) jobs =
      (runMachine machine jobs).map fun outcome => (outcome.1, executeAll world outcome.2) := by
  induction jobs generalizing machine world with
  | nil => rfl
  | cons job rest ih =>
      cases feeds : StateMachine.feed machine job with
      | none => simp [execute, Node.handle, runMachine, feeds]
      | some outcome =>
          obtain ⟨middle, effects⟩ := outcome
          have onwards : ∀ batches, executeAll world (effects :: batches) =
              executeAll (if effects.isEmpty then world else Transport.execute world effects)
                batches := by
            intro batches
            cases effects <;> rfl
          simp only [execute, Node.handle, feeds, Option.map_some, Option.bind_some, ih,
            runMachine, Option.bind_eq_bind, Option.pure_def]
          cases runMachine middle rest with
          | none => rfl
          | some outcome => simp [onwards]

end Machine

end Raspen
