import Raspen.Choreo.Core

/-!
# Choreographies in an open environment

A step of a choreography lets a process see its whole mailbox.  In an open environment a
process may act on any part of it, so a message may be as late as it likes; messages of an
admitted kind may appear from outside, and events may fire at any time.  The steps of the
closed choreography are among the open ones.
-/

namespace Raspen.Choreo

open Raspen.Transition

variable {process state message event custom extensions result : Type}
variable [DecidableEq process] [DecidableEq state] [DecidableEq message] [DecidableEq event]
variable [DecidableEq custom]

/-- What can happen next: a process takes a transition on a part of its mailbox, a message
appears in every mailbox, or an event fires at a process. -/
inductive OpenAction (process state message event custom : Type)
  | take (v : process) (visible : Finset message)
      (pick : Transition process state message event custom)
  | inject (msg : message)
  | fire (v : process) (ev : event)

/-- The steps in an open environment that lets the messages of `admits` in. -/
def openStep (processes : Finset process)
    (listener : Listener process state message event custom extensions)
    (applyCustomEffect : EffectProcessor process state message event custom extensions)
    (admits : message → Bool) :
    Next (GlobalContext process state message event extensions)
      (OpenAction process state message event custom)
  | env, .take v visible pick =>
      if v ∈ processes ∧ visible ⊆ env.messages v then
        stepWithMessages v listener applyCustomEffect (fun _ => visible) env pick
      else none
  | env, .inject msg =>
      if admits msg then
        some { env with messages := fun node => insert msg (env.messages node) }
      else none
  | env, .fire v ev =>
      some { env with events := Function.update env.events v (insert ev (env.events v)) }

variable {processes : Finset process}
variable {listener : Listener process state message event custom extensions}
variable {applyCustomEffect : EffectProcessor process state message event custom extensions}
variable {admits : message → Bool}
variable {env later : GlobalContext process state message event extensions}

/-- What a process sees when only `visible` has reached it. -/
def LocalContext.seeing (ctx : LocalContext state message event extensions)
    (visible : Finset message) : LocalContext state message event extensions :=
  { ctx with messages := visible }

/-- A step in an open environment is a transition offered on visible messages, or leaves the
local states alone. -/
theorem openStep_cases {action : OpenAction process state message event custom}
    (steps : openStep processes listener applyCustomEffect admits env action = some later) :
    (∃ v ∈ processes, ∃ visible ⊆ env.messages v,
      ∃ transition ∈ listener ((convertContext env v).seeing visible),
        applyEffect applyCustomEffect env v transition = later) ∨
    (∃ msg, admits msg = true ∧
      { env with messages := fun node => insert msg (env.messages node) } = later) ∨
    ∃ events, { env with events := events } = later := by
  cases action with
  | take v visible pick =>
      simp only [openStep, stepWithMessages, processTransitions, Option.ite_none_right_eq_some,
        Option.some.injEq] at steps
      rcases steps with ⟨⟨member, sub⟩, pickMem, rfl⟩
      exact .inl ⟨v, member, visible, sub, pick, (Finset.mem_filter.mp pickMem).1, rfl⟩
  | inject msg =>
      simp only [openStep, Option.ite_none_right_eq_some, Option.some.injEq] at steps
      exact .inr (.inl ⟨msg, steps⟩)
  | fire v ev =>
      cases steps
      exact .inr (.inr ⟨_, rfl⟩)

/-- A process that sees its whole mailbox sees part of it. -/
theorem openStep_of_step
    {action : process × Transition process state message event custom}
    (steps : step processes listener applyCustomEffect env action = some later) :
    openStep processes listener applyCustomEffect admits env
      (.take action.1 (env.messages action.1) action.2) = some later := by
  rcases step_eq_some_iff.mp steps with ⟨member, offers, rfl⟩
  rw [openStep, if_pos ⟨member, Finset.Subset.refl _⟩, stepWithMessages, processTransitions]
  exact if_pos offers

/-- The runs of the closed choreography are runs in any open environment. -/
theorem openRun_of_run {start : GlobalContext process state message event extensions}
    (run : Reachable (step processes listener applyCustomEffect) start env) :
    Reachable (openStep processes listener applyCustomEffect admits) start env :=
  run.invariant .refl fun _ reached steps => reached.tail (openStep_of_step steps)

omit [DecidableEq state] [DecidableEq custom] in
/-- A transition without effects that keeps the state does nothing. -/
theorem applyEffect_of_idle {v : process}
    {transition : Transition process state message event custom}
    (effects : transition.effects = []) (same : transition.postState = env.system v) :
    applyEffect applyCustomEffect env v transition = env := by
  rw [applyEffect, effects, same, Function.update_eq_self]
  rfl

/-- What a process may do on visible messages is reached, be it idle or not. -/
theorem openRun_take {start : GlobalContext process state message event extensions}
    (run : Reachable (openStep processes listener applyCustomEffect admits) start env)
    {v : process} (member : v ∈ processes) {visible : Finset message}
    (sub : visible ⊆ env.messages v)
    {transition : Transition process state message event custom}
    (transitionMem : transition ∈ listener ((convertContext env v).seeing visible)) :
    Reachable (openStep processes listener applyCustomEffect admits) start
      (applyEffect applyCustomEffect env v transition) := by
  by_cases moves : 0 < transition.effects.length ∨ transition.postState ≠ env.system v
  · have taken : openStep processes listener applyCustomEffect admits env
        (.take v visible transition) = some (applyEffect applyCustomEffect env v transition) := by
      rw [openStep, if_pos ⟨member, sub⟩, stepWithMessages, processTransitions]
      exact if_pos (Finset.mem_filter.mpr ⟨transitionMem, moves⟩)
    exact run.tail taken
  · push Not at moves
    rw [applyEffect_of_idle (List.eq_nil_of_length_eq_zero (Nat.le_zero.mp moves.1)) moves.2]
    exact run

end Raspen.Choreo
