import Raspen.Transition.Core
import Raspen.Types.Message

/-!
# The sequencer

`submit` takes a number from a counter that all callers share and then publishes it.
The two steps are atomic each but not together, so other calls may come in between.
-/

namespace Raspen

/-- The shared counter behind the sequence numbers. -/
structure EtaAssigner where
  counter : UInt64

namespace EtaAssigner

def new : EtaAssigner :=
  ⟨0⟩

/-- `fetch_add(1)`: the old value, and the counter behind it.  The addition wraps. -/
def next (assigner : EtaAssigner) : Eta × EtaAssigner :=
  (assigner.counter, ⟨assigner.counter + 1⟩)

end EtaAssigner

/-- A broadcast channel without lag: what each receiver has got, the first to subscribe
first. -/
structure Broadcast (α : Type) where
  receivers : List (List α)

namespace Broadcast

variable {α : Type}

def channel : Broadcast α :=
  ⟨[]⟩

/-- A new receiver gets what is sent from now on. -/
def subscribe (sender : Broadcast α) : Broadcast α :=
  ⟨sender.receivers ++ [[]]⟩

/-- Every receiver gets the item.  Without receivers it is lost. -/
def send (sender : Broadcast α) (item : α) : Broadcast α :=
  ⟨sender.receivers.map (· ++ [item])⟩

end Broadcast

structure Sequencer where
  eta : EtaAssigner
  sender : Broadcast Message

namespace Sequencer

def new : Sequencer where
  eta := .new
  sender := .channel

def subscribe (sequencer : Sequencer) : Sequencer :=
  { sequencer with sender := sequencer.sender.subscribe }

/-- The first step of `submit`. -/
def assign (sequencer : Sequencer) : Eta × Sequencer :=
  (sequencer.eta.next.1, { sequencer with eta := sequencer.eta.next.2 })

/-- What `submit` broadcasts. -/
def speculate (opHash : Hash) (eta : Eta) : Message :=
  .speculate "sequencer" 0 opHash eta

/-- The second step of `submit`. -/
def publish (sequencer : Sequencer) (opHash : Hash) (eta : Eta) : Sequencer :=
  { sequencer with sender := sequencer.sender.send (speculate opHash eta) }

/-- Assign the next number to `op_hash`, broadcast a SPECULATE and return the number. -/
def submit (sequencer : Sequencer) (opHash : Hash) : Eta × Sequencer :=
  let (eta, assigned) := sequencer.assign
  (eta, assigned.publish opHash eta)

end Sequencer

/-! ## Concurrent calls -/

/-- A call of `submit` with its argument; the caller tells equal arguments apart. -/
structure SubmitCall (κ : Type) where
  caller : κ
  opHash : Hash
  deriving DecidableEq

/-- The steps of any number of concurrent calls on one sequencer. -/
inductive SubmitStep (κ : Type)
  | next (call : SubmitCall κ)
  | send (call : SubmitCall κ)
  | subscribe

/-- A sequencer, the calls that stand between their two steps and the calls that have
returned, with the number of each. -/
structure Submissions (κ : Type) where
  sequencer : Sequencer
  pending : List (SubmitCall κ × Eta)
  returned : List (SubmitCall κ × Eta)

namespace Submissions

variable {κ : Type}

def new : Submissions κ where
  sequencer := .new
  pending := []
  returned := []

/-- The calls that have been made. -/
def calls (submissions : Submissions κ) : List (SubmitCall κ) :=
  (submissions.pending ++ submissions.returned).map Prod.fst

variable [DecidableEq κ]

/-- One atomic step of some call.  A call is made once, and sends only after it has its
number. -/
def step (submissions : Submissions κ) : SubmitStep κ → Option (Submissions κ)
  | .next call =>
      if call ∈ submissions.calls then none
      else
        let (eta, sequencer) := submissions.sequencer.assign
        some { submissions with
          sequencer := sequencer
          pending := submissions.pending ++ [(call, eta)] }
  | .send call =>
      (submissions.pending.find? (·.1 = call)).map fun ticket =>
        { sequencer := submissions.sequencer.publish call.opHash ticket.2
          pending := submissions.pending.erase ticket
          returned := submissions.returned ++ [ticket] }
  | .subscribe =>
      some { submissions with sequencer := submissions.sequencer.subscribe }

variable {submissions later : Submissions κ} {call : SubmitCall κ}

theorem step_next_eq_some (steps : submissions.step (.next call) = some later) :
    call ∉ submissions.calls ∧ later = { submissions with
      sequencer := submissions.sequencer.assign.2
      pending := submissions.pending ++ [(call, submissions.sequencer.eta.counter)] } := by
  by_cases made : call ∈ submissions.calls
  · simp [step, made] at steps
  · simp only [step, made, if_false, Option.some.injEq] at steps
    exact ⟨made, steps.symm⟩

theorem step_send_eq_some (steps : submissions.step (.send call) = some later) :
    ∃ eta, submissions.pending.find? (·.1 = call) = some (call, eta) ∧
      later =
        { sequencer := submissions.sequencer.publish call.opHash eta
          pending := submissions.pending.erase (call, eta)
          returned := submissions.returned ++ [(call, eta)] } := by
  rcases Option.map_eq_some_iff.mp steps with ⟨⟨other, eta⟩, found, rfl⟩
  have same : other = call := by simpa using List.find?_some found
  subst same
  exact ⟨eta, found, rfl⟩

/-- Two steps without another in between are one call of `submit`. -/
theorem execute_next_send (fresh : call ∉ submissions.calls) :
    Transition.execute step submissions [.next call, .send call] =
      some { submissions with
        sequencer := (submissions.sequencer.submit call.opHash).2
        returned := submissions.returned ++
          [(call, (submissions.sequencer.submit call.opHash).1)] } := by
  have unknown : ∀ ticket ∈ submissions.pending, ticket.1 ≠ call := by
    rintro ticket ticketMem rfl
    exact fresh (List.mem_map_of_mem (List.mem_append_left _ ticketMem))
  have absent : (call, submissions.sequencer.eta.counter) ∉ submissions.pending :=
    fun ticketMem => unknown _ ticketMem rfl
  have notFound : submissions.pending.find? (·.1 = call) = none :=
    List.find?_eq_none.mpr fun ticket ticketMem => by simpa using unknown ticket ticketMem
  simp [Transition.execute, step, fresh, Sequencer.assign, EtaAssigner.next, Sequencer.submit,
    notFound, List.erase_append_right _ absent]

end Submissions

end Raspen
