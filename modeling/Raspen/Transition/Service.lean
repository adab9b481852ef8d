import Raspen.Transition.Channel
import Raspen.Transition.Core

/-!
# A worker behind a channel

Any number of clients put items into a channel; one worker takes them out and serves them
one by one.  Serving may fail, and then the worker is lost with the receiver.
-/

namespace Raspen.Transition

universe u v w x

/-- The worker is between two items, has one in its hands, has come to its end or was lost
over an item.  What it did before stays done; a lost one is on record with the state in
which it took the item. -/
inductive Worker (σ : Type u) (α : Type v)
  | idle (state : σ)
  | busy (state : σ) (item : α)
  | done (state : σ)
  | lost (state : σ) (item : α)
  deriving DecidableEq

namespace Worker

variable {σ : Type u} {α : Type v}

def state : Worker σ α → σ
  | idle state | busy state _ | done state | lost state _ => state

/-- The item that it has taken and not served. -/
def held : Worker σ α → List α
  | idle _ | done _ => []
  | busy _ item | lost _ item => [item]

/-- The loop has not ended. -/
def isRunning : Worker σ α → Bool
  | idle _ | busy _ _ => true
  | done _ | lost _ _ => false

/-- A worker that has ended and still holds an item was lost over it. -/
theorem eq_lost_of_held {worker : Worker σ α} {item : α} (ended : worker.isRunning = false)
    (holds : worker.held = [item]) : worker = .lost worker.state item := by
  cases worker with
  | idle state => contradiction
  | busy state other => contradiction
  | done state => contradiction
  | lost state other =>
      cases holds
      rfl

end Worker

/-- A channel and the worker that owns its receiver. -/
structure Service (C : Type u) (σ : Type v) (α : Type w) where
  channel : C
  worker : Worker σ α
  deriving DecidableEq

/-- The steps of clients and worker.  A client learns whether its item was accepted; the
choice says how the worker serves an item where that is left open. -/
inductive ServiceStep (α : Type u) (κ : Type v)
  | submit (item : α)
  | refuse (item : α)
  | clone
  | drop
  | receive
  | work (choice : κ)
  | finish

/-- The item that a step puts into the channel. -/
def ServiceStep.accepted {α : Type u} {κ : Type v} : ServiceStep α κ → Option α
  | submit item => some item
  | _ => none

namespace Service

variable {C : Type u} {σ : Type v} {α : Type w} {κ : Type x} [Mpsc C α]

open Mpsc

/-- A client step needs a handle, and the last handle is kept while it is in use. -/
def step (serve : Next σ (α × κ)) (service : Service C σ α) :
    ServiceStep α κ → Option (Service C σ α)
  | .submit item =>
      if (view service.channel).senders = 0 then none
      else
        match send service.channel item with
        | .sent channel => some { service with channel := channel }
        | _ => none
  | .refuse item =>
      if (view service.channel).senders = 0 then none
      else
        match send service.channel item with
        | .disconnected => some service
        | _ => none
  | .clone =>
      if (view service.channel).senders = 0 then none
      else some { service with channel := cloneSender service.channel }
  | .drop =>
      if (view service.channel).senders = 0 then none
      else some { service with channel := dropSender service.channel }
  | .receive =>
      match service.worker with
      | .idle state =>
          match recv service.channel with
          | .received item channel => some ⟨channel, .busy state item⟩
          | _ => none
      | _ => none
  | .work choice =>
      match service.worker with
      | .busy state item =>
          match serve state (item, choice) with
          | some next => some { service with worker := .idle next }
          | none => some ⟨dropReceiver service.channel, .lost state item⟩
      | _ => none
  | .finish =>
      match service.worker with
      | .idle state =>
          match recv service.channel with
          | .disconnected => some ⟨dropReceiver service.channel, .done state⟩
          | _ => none
      | _ => none

/-- The accepted items that have not been served, the oldest first. -/
def pending (service : Service C σ α) : List α :=
  service.worker.held ++ (view service.channel).queue

section Inversion

variable {serve : Next σ (α × κ)} {service later : Service C σ α} {item : α} {choice : κ}

theorem step_submit_eq_some (steps : service.step serve (.submit item) = some later) :
    (view service.channel).isOpen = true ∧
      (view service.channel).queue.length < (view service.channel).capacity ∧
        later.worker = service.worker ∧
          view later.channel = { view service.channel with
            queue := (view service.channel).queue ++ [item] } := by
  simp only [step] at steps
  split at steps
  · contradiction
  · split at steps
    · rename_i channel sends
      cases steps
      obtain ⟨isOpen, free, viewed⟩ := send_eq_sent sends
      exact ⟨isOpen, free, rfl, viewed⟩
    · contradiction

theorem step_refuse_eq_some (steps : service.step serve (.refuse item) = some later) :
    (view service.channel).senders ≠ 0 ∧ (view service.channel).isOpen = false ∧
      later = service := by
  simp only [step] at steps
  split at steps
  · contradiction
  · rename_i owned
    split at steps
    · rename_i sends
      cases steps
      exact ⟨owned, send_eq_disconnected_iff.mp sends, rfl⟩
    · contradiction

/-- A handle is cloned or dropped by someone who has one. -/
theorem step_clone_eq_some (steps : service.step serve .clone = some later) :
    (view service.channel).senders ≠ 0 ∧ later.worker = service.worker ∧
      view later.channel = (view service.channel).cloneSender := by
  simp only [step] at steps
  split at steps
  · contradiction
  · rename_i owned
    cases steps
    exact ⟨owned, rfl, view_cloneSender _⟩

theorem step_drop_eq_some (steps : service.step serve .drop = some later) :
    (view service.channel).senders ≠ 0 ∧ later.worker = service.worker ∧
      view later.channel = (view service.channel).dropSender := by
  simp only [step] at steps
  split at steps
  · contradiction
  · rename_i owned
    cases steps
    exact ⟨owned, rfl, view_dropSender _⟩

theorem step_receive_eq_some (steps : service.step serve .receive = some later) :
    ∃ state item, service.worker = .idle state ∧ later.worker = .busy state item ∧
      (view service.channel).queue = item :: (view later.channel).queue ∧
        view later.channel = { view service.channel with
          queue := (view later.channel).queue } := by
  simp only [step] at steps
  split at steps
  · rename_i state isIdle
    split at steps
    · rename_i item channel receives
      cases steps
      obtain ⟨queue_eq, viewed⟩ := recv_eq_received receives
      exact ⟨state, item, isIdle, rfl, queue_eq, viewed⟩
    · contradiction
  · contradiction

/-- The item in hand is served, or the worker is lost with it. -/
theorem step_work_eq_some (steps : service.step serve (.work choice) = some later) :
    ∃ state item, service.worker = .busy state item ∧
      ((∃ next, serve state (item, choice) = some next ∧
          later = { service with worker := .idle next }) ∨
        (serve state (item, choice) = none ∧
          later = ⟨dropReceiver service.channel, .lost state item⟩)) := by
  simp only [step] at steps
  split at steps
  · rename_i state item isBusy
    split at steps
    · rename_i next serves
      cases steps
      exact ⟨state, item, isBusy, .inl ⟨next, serves, rfl⟩⟩
    · rename_i fails
      cases steps
      exact ⟨state, item, isBusy, .inr ⟨fails, rfl⟩⟩
  · contradiction

theorem step_finish_eq_some (steps : service.step serve .finish = some later) :
    ∃ state, service.worker = .idle state ∧ (view service.channel).queue = [] ∧
      (view service.channel).senders = 0 ∧
        later = ⟨dropReceiver service.channel, .done state⟩ := by
  simp only [step] at steps
  split at steps
  · rename_i state isIdle
    split at steps
    · rename_i receives
      cases steps
      obtain ⟨empty, nobody⟩ := recv_eq_disconnected_iff.mp receives
      exact ⟨state, isIdle, empty, nobody, rfl⟩
    · contradiction
  · contradiction

/-- A step leaves the state of the worker alone and adds what it accepts to the items still
to serve, or it serves the first of them. -/
theorem step_cases {action : ServiceStep α κ} (taken : service.step serve action = some later) :
    (later.worker.state = service.worker.state ∧
        later.pending = service.pending ++ action.accepted.toList) ∨
      ∃ item choice, serve service.worker.state (item, choice) = some later.worker.state ∧
        service.pending = item :: later.pending ∧ action.accepted = none := by
  cases action with
  | submit item =>
      obtain ⟨_, _, sameWorker, viewed⟩ := step_submit_eq_some taken
      left
      rw [pending, pending, sameWorker, viewed, List.append_assoc]
      exact ⟨rfl, rfl⟩
  | refuse item =>
      obtain ⟨_, _, rfl⟩ := step_refuse_eq_some taken
      exact .inl ⟨rfl, (List.append_nil _).symm⟩
  | clone =>
      obtain ⟨_, sameWorker, viewed⟩ := step_clone_eq_some taken
      left
      rw [pending, pending, sameWorker, viewed]
      exact ⟨rfl, (List.append_nil _).symm⟩
  | drop =>
      obtain ⟨_, sameWorker, viewed⟩ := step_drop_eq_some taken
      left
      rw [pending, pending, sameWorker, viewed]
      exact ⟨rfl, (List.append_nil _).symm⟩
  | receive =>
      obtain ⟨state, item, isIdle, isBusy, queue_eq, _⟩ := step_receive_eq_some taken
      left
      rw [pending, pending, isIdle, isBusy, queue_eq]
      exact ⟨rfl, (List.append_nil _).symm⟩
  | work choice =>
      obtain ⟨state, item, isBusy, ⟨next, serves, rfl⟩ | ⟨_, rfl⟩⟩ := step_work_eq_some taken
      · right
        rw [pending, pending, isBusy]
        exact ⟨item, choice, serves, rfl, rfl⟩
      · left
        rw [pending, pending, isBusy, view_dropReceiver]
        exact ⟨rfl, (List.append_nil _).symm⟩
  | finish =>
      obtain ⟨state, isIdle, _, _, rfl⟩ := step_finish_eq_some taken
      left
      rw [pending, pending, isIdle, view_dropReceiver]
      exact ⟨rfl, (List.append_nil _).symm⟩

end Inversion

end Service

/-! ## What a run has done -/

/-- The items that were accepted, in the order of the submissions. -/
def acceptedItems {α : Type u} {κ : Type v} (steps : List (ServiceStep α κ)) : List α :=
  steps.filterMap ServiceStep.accepted

section Accepted

variable {α : Type u} {κ : Type v} {steps : List (ServiceStep α κ)}

theorem acceptedItems_append (first later : List (ServiceStep α κ)) :
    acceptedItems (first ++ later) = acceptedItems first ++ acceptedItems later :=
  List.filterMap_append

theorem acceptedItems_silent {action : ServiceStep α κ} (silent : action.accepted = none) :
    acceptedItems (steps ++ [action]) = acceptedItems steps := by
  simp [acceptedItems, silent]

end Accepted

namespace Service

variable {C : Type u} {σ : Type v} {α : Type w} {κ : Type x} [Mpsc C α]

open Mpsc

/-- What holds of a service at any time: no more items wait than there is room for, the
receiver is there while the loop runs, a worker that is done has left nothing behind, and a
lost one could not serve the item it holds. -/
structure Sound (serve : Next σ (α × κ)) (capacity : Nat) (service : Service C σ α) :
    Prop where
  capacity_eq : (view service.channel).capacity = capacity
  fits : (view service.channel).queue.length ≤ capacity
  isOpen : (view service.channel).isOpen = service.worker.isRunning
  drained : ∀ state, service.worker = .done state →
    (view service.channel).queue = [] ∧ (view service.channel).senders = 0
  broken : ∀ state item, service.worker = .lost state item →
    ∃ choice, serve state (item, choice) = none

/-- The books of a run: the items of the log have been served one after the other, and the
accepted ones are these and those still to serve. -/
structure Accounts (serve : Next σ (α × κ)) (start : σ) (steps : List (ServiceStep α κ))
    (log : List (α × κ)) (service : Service C σ α) : Prop where
  accepted : acceptedItems steps = log.map Prod.fst ++ service.pending
  served : execute serve start log = some service.worker.state

variable {serve : Next σ (α × κ)} {start : σ} {capacity : Nat}
  {steps : List (ServiceStep α κ)} {log : List (α × κ)} {service later : Service C σ α}

namespace Sound

/-- While the worker runs, only the channel counts. -/
theorem of_running (running : service.worker.isRunning = true)
    (capacity_eq : (view service.channel).capacity = capacity)
    (fits : (view service.channel).queue.length ≤ capacity)
    (isOpen : (view service.channel).isOpen = true) : Sound serve capacity service where
  capacity_eq := capacity_eq
  fits := fits
  isOpen := isOpen.trans running.symm
  drained := by
    intro state isDone
    rw [isDone] at running
    contradiction
  broken := by
    intro state item isLost
    rw [isLost] at running
    contradiction

/-- The number of handles does not matter to a service that has one. -/
theorem of_handles {senders : Nat} (sound : Sound serve capacity service)
    (owned : (view service.channel).senders ≠ 0) (sameWorker : later.worker = service.worker)
    (viewed : view later.channel = { view service.channel with senders := senders }) :
    Sound serve capacity later := by
  constructor
  · rw [viewed]
    exact sound.capacity_eq
  · rw [viewed]
    exact sound.fits
  · rw [viewed, sameWorker]
    exact sound.isOpen
  · intro state isDone
    rw [sameWorker] at isDone
    exact absurd (sound.drained state isDone).2 owned
  · rw [sameWorker]
    exact sound.broken

/-- Every step keeps a service sound. -/
theorem of_step {action : ServiceStep α κ} (sound : Sound serve capacity service)
    (taken : service.step serve action = some later) : Sound serve capacity later := by
  cases action with
  | submit item =>
      obtain ⟨isOpen, free, sameWorker, viewed⟩ := step_submit_eq_some taken
      rw [sound.capacity_eq] at free
      apply of_running
      · rw [sameWorker, ← sound.isOpen]
        exact isOpen
      · rw [viewed]
        exact sound.capacity_eq
      · rw [viewed, List.length_append]
        exact free
      · rw [viewed]
        exact isOpen
  | refuse item =>
      obtain ⟨_, _, rfl⟩ := step_refuse_eq_some taken
      exact sound
  | clone =>
      obtain ⟨owned, sameWorker, viewed⟩ := step_clone_eq_some taken
      exact sound.of_handles owned sameWorker viewed
  | drop =>
      obtain ⟨owned, sameWorker, viewed⟩ := step_drop_eq_some taken
      exact sound.of_handles owned sameWorker viewed
  | receive =>
      obtain ⟨state, item, isIdle, isBusy, queue_eq, viewed⟩ := step_receive_eq_some taken
      have fits := sound.fits
      have isOpen := sound.isOpen
      rw [queue_eq, List.length_cons] at fits
      rw [isIdle] at isOpen
      apply of_running
      · rw [isBusy]
        rfl
      · rw [viewed]
        exact sound.capacity_eq
      · exact Nat.le_of_succ_le fits
      · rw [viewed]
        exact isOpen
  | work choice =>
      obtain ⟨state, item, isBusy, ⟨next, _, rfl⟩ | ⟨fails, rfl⟩⟩ := step_work_eq_some taken
      · have isOpen := sound.isOpen
        rw [isBusy] at isOpen
        exact of_running rfl sound.capacity_eq sound.fits isOpen
      · constructor
        · rw [view_dropReceiver]
          exact sound.capacity_eq
        · rw [view_dropReceiver]
          exact sound.fits
        · rw [view_dropReceiver]
          rfl
        · intro other isDone
          contradiction
        · intro other otherItem isLost
          cases isLost
          exact ⟨choice, fails⟩
  | finish =>
      obtain ⟨state, _, empty, nobody, rfl⟩ := step_finish_eq_some taken
      constructor
      · rw [view_dropReceiver]
        exact sound.capacity_eq
      · rw [view_dropReceiver]
        exact sound.fits
      · rw [view_dropReceiver]
        rfl
      · intro other _
        rw [view_dropReceiver]
        exact ⟨empty, nobody⟩
      · intro other otherItem isLost
        contradiction

end Sound

/-- An item that is served goes to the end of the log. -/
theorem Accounts.of_step {action : ServiceStep α κ}
    (accounts : Accounts serve start steps log service)
    (taken : service.step serve action = some later) :
    ∃ log, Accounts serve start (steps ++ [action]) log later := by
  rcases step_cases taken with ⟨sameState, moved⟩ | ⟨item, choice, serves, first, silent⟩
  · refine ⟨log, ?_⟩
    constructor
    · rw [acceptedItems_append, accounts.accepted, moved, List.append_assoc]
      cases accepts : action.accepted <;> simp [acceptedItems, accepts]
    · rw [sameState]
      exact accounts.served
  · refine ⟨log ++ [(item, choice)], ?_⟩
    constructor
    · rw [acceptedItems_silent silent, accounts.accepted, first]
      simp
    · rw [execute_append_single, accounts.served]
      exact serves

/-- A service at its start: the worker is idle and nothing waits. -/
structure IsNew (start : σ) (capacity : Nat) (service : Service C σ α) : Prop where
  worker_eq : service.worker = .idle start
  view_eq : view service.channel =
    { queue := [], capacity := capacity, senders := 1, isOpen := true }

namespace IsNew

theorem sound (isNew : IsNew start capacity service) : Sound serve capacity service := by
  apply Sound.of_running
  · rw [isNew.worker_eq]
    rfl
  · rw [isNew.view_eq]
  · rw [isNew.view_eq]
    exact Nat.zero_le _
  · rw [isNew.view_eq]

theorem accounts (isNew : IsNew start capacity service) :
    Accounts serve start [] [] service := by
  constructor
  · rw [pending, isNew.worker_eq, isNew.view_eq]
    rfl
  · rw [isNew.worker_eq]
    rfl

end IsNew

/-- Every run of a service keeps its books. -/
theorem exists_accounts {first : Service C σ α} (isNew : IsNew start capacity first)
    (run : execute (step serve) first steps = some service) :
    Sound serve capacity service ∧ ∃ log, Accounts serve start steps log service := by
  apply execute_induction (P := fun steps service =>
    Sound serve capacity service ∧ ∃ log, Accounts serve start steps log service) run
  · exact ⟨isNew.sound, [], isNew.accounts⟩
  · intro before middle action after earlier taken
    obtain ⟨sound, log, accounts⟩ := earlier
    exact ⟨sound.of_step taken, accounts.of_step taken⟩

/-! ## The end of a service -/

/-- Behind a worker that has ended, handles come and go and items are refused. -/
theorem step_of_ended {action : ServiceStep α κ} (ended : service.worker.isRunning = false)
    (isClosed : (view service.channel).isOpen = false)
    (taken : service.step serve action = some later) :
    later.worker = service.worker ∧ (view later.channel).isOpen = false ∧
      action.accepted = none := by
  cases action with
  | submit item =>
      have isOpen := (step_submit_eq_some taken).1
      rw [isClosed] at isOpen
      contradiction
  | refuse item =>
      obtain ⟨_, _, rfl⟩ := step_refuse_eq_some taken
      exact ⟨rfl, isClosed, rfl⟩
  | clone =>
      obtain ⟨_, sameWorker, viewed⟩ := step_clone_eq_some taken
      exact ⟨sameWorker, (congrArg Fifo.isOpen viewed).trans isClosed, rfl⟩
  | drop =>
      obtain ⟨_, sameWorker, viewed⟩ := step_drop_eq_some taken
      exact ⟨sameWorker, (congrArg Fifo.isOpen viewed).trans isClosed, rfl⟩
  | receive =>
      obtain ⟨_, _, isIdle, _⟩ := step_receive_eq_some taken
      rw [isIdle] at ended
      contradiction
  | work choice =>
      obtain ⟨_, _, isBusy, _⟩ := step_work_eq_some taken
      rw [isBusy] at ended
      contradiction
  | finish =>
      obtain ⟨_, isIdle, _⟩ := step_finish_eq_some taken
      rw [isIdle] at ended
      contradiction

/-- A worker that has ended stays as it is, and nothing is accepted any more. -/
theorem ended_of_execute (ended : service.worker.isRunning = false)
    (isClosed : (view service.channel).isOpen = false)
    (run : execute (step serve) service steps = some later) :
    later.worker = service.worker ∧ acceptedItems steps = [] := by
  have kept : later.worker = service.worker ∧ (view later.channel).isOpen = false ∧
      acceptedItems steps = [] := by
    apply execute_induction (P := fun steps later => later.worker = service.worker ∧
      (view later.channel).isOpen = false ∧ acceptedItems steps = []) run
    · exact ⟨rfl, isClosed, rfl⟩
    · intro before middle action after earlier taken
      obtain ⟨sameWorker, closed, nothing⟩ := earlier
      have endedBefore : middle.worker.isRunning = false := by
        rw [sameWorker]
        exact ended
      obtain ⟨stays, closedAfter, refused⟩ := step_of_ended endedBefore closed taken
      refine ⟨stays.trans sameWorker, closedAfter, ?_⟩
      rw [acceptedItems_silent refused]
      exact nothing
  exact ⟨kept.1, kept.2.2⟩

/-- How many steps the worker can still take on its own. -/
def remaining (service : Service C σ α) : Nat :=
  match service.worker with
  | .idle _ => 2 * (view service.channel).queue.length + 1
  | .busy _ _ => 2 * (view service.channel).queue.length + 2
  | .done _ | .lost _ _ => 0

theorem remaining_le (service : Service C σ α) :
    service.remaining ≤ 2 * (view service.channel).queue.length + 2 := by
  unfold remaining
  split <;> omega

/-- Without handles, only the worker takes steps, and they bring it closer to its end. -/
theorem remaining_lt_of_step {action : ServiceStep α κ}
    (nobody : (view service.channel).senders = 0)
    (taken : service.step serve action = some later) :
    later.remaining < service.remaining ∧ (view later.channel).senders = 0 := by
  cases action with
  | submit item => simp [step, nobody] at taken
  | refuse item => simp [step, nobody] at taken
  | clone => simp [step, nobody] at taken
  | drop => simp [step, nobody] at taken
  | receive =>
      obtain ⟨state, item, isIdle, isBusy, queue_eq, viewed⟩ := step_receive_eq_some taken
      constructor
      · simp only [remaining, isIdle, isBusy, queue_eq, List.length_cons]
        omega
      · rw [viewed]
        exact nobody
  | work choice =>
      obtain ⟨state, item, isBusy, ⟨next, _, rfl⟩ | ⟨_, rfl⟩⟩ := step_work_eq_some taken
      · constructor
        · simp only [remaining, isBusy]
          omega
        · exact nobody
      · constructor
        · simp only [remaining, isBusy]
          omega
        · rw [view_dropReceiver]
          exact nobody
  | finish =>
      obtain ⟨state, isIdle, _, _, rfl⟩ := step_finish_eq_some taken
      constructor
      · simp only [remaining, isIdle]
        omega
      · rw [view_dropReceiver]
        exact nobody

/-- Without handles, a service comes to its end. -/
theorem length_le_remaining (nobody : (view service.channel).senders = 0)
    (run : execute (step serve) service steps = some later) :
    steps.length + later.remaining ≤ service.remaining ∧ (view later.channel).senders = 0 := by
  apply execute_induction (P := fun steps later =>
    steps.length + later.remaining ≤ service.remaining ∧
      (view later.channel).senders = 0) run
  · exact ⟨by simp, nobody⟩
  · intro before middle action after earlier taken
    obtain ⟨bounded, still⟩ := earlier
    obtain ⟨less, nobodyLater⟩ := remaining_lt_of_step still taken
    rw [List.length_append, List.length_singleton]
    exact ⟨by omega, nobodyLater⟩

/-- Without handles, a running worker can always take a step. -/
theorem exists_step_of_running (serve : Next σ (α × κ)) (choice : κ)
    (nobody : (view service.channel).senders = 0) (running : service.worker.isRunning = true) :
    ∃ action later, service.step serve action = some later := by
  cases isWorker : service.worker with
  | done state => simp [isWorker, Worker.isRunning] at running
  | lost state item => simp [isWorker, Worker.isRunning] at running
  | busy state item =>
      cases serves : serve state (item, choice) with
      | none => exact ⟨.work choice, _, by simp only [step, isWorker, serves]; rfl⟩
      | some next => exact ⟨.work choice, _, by simp only [step, isWorker, serves]; rfl⟩
  | idle state =>
      by_cases empty : (view service.channel).queue = []
      · have receives := recv_eq_disconnected_iff.mpr ⟨empty, nobody⟩
        exact ⟨.finish, _, by simp only [step, isWorker, receives]; rfl⟩
      · obtain ⟨item, channel, receives⟩ := exists_recv empty
        exact ⟨.receive, _, by simp only [step, isWorker, receives]; rfl⟩

end Service

end Raspen.Transition
