import Raspen.Transition.Core
import Mathlib.Data.Finset.Basic
import Mathlib.Data.Finset.Option
import Mathlib.Data.Finset.Union
import Mathlib.Logic.Function.Basic

/-!
# Choreographies

`specs/choreo/choreo.qnt`: every process has a local state, a mailbox that only grows
and a set of pending events.  A listener maps what a process sees to the transitions it
may take, and a step takes one of them: the local state is replaced and the effects are
folded over the environment.  The local state and the messages, events and effects are
the choreography's own.
-/

namespace Raspen.Choreo

open Raspen.Transition

variable {process state message event custom extensions result : Type}

/-! ## Sets -/

/-- `filterMap` on a set. -/
def filterMap {α β : Type} [DecidableEq β] (elements : Finset α) (select : α → Option β) :
    Finset β :=
  elements.biUnion fun element => (select element).toFinset

@[simp]
theorem mem_filterMap_iff {α β : Type} [DecidableEq β] {elements : Finset α}
    {select : α → Option β} {selected : β} :
    selected ∈ filterMap elements select ↔
      ∃ element ∈ elements, select element = some selected := by
  simp [filterMap]

/-! ## The environment -/

/-- What a transition does to the environment. -/
inductive Effect (process message event custom : Type)
  | broadcast (msg : message)
  | send (target : process) (msg : message)
  | triggerEvent (ev : event)
  | customEffect (effect : custom)
  deriving DecidableEq

/-- The next local state and the effects of reaching it. -/
structure Transition (process state message event custom : Type) where
  postState : state
  effects : List (Effect process message event custom)
  deriving DecidableEq

/-- The environment: the local states, the mailboxes and the pending events. -/
structure GlobalContext (process state message event extensions : Type) where
  system : process → state
  messages : process → Finset message
  events : process → Finset event
  extensions : extensions

/-- What one process sees of it. -/
structure LocalContext (state message event extensions : Type) where
  state : state
  messages : Finset message
  events : Finset event
  extensions : extensions

/-- A map from what a process sees to its transitions. -/
abbrev Listener (process state message event custom extensions : Type) :=
  LocalContext state message event extensions →
    Finset (Transition process state message event custom)

/-- The meaning of the effects that are the choreography's own. -/
abbrev EffectProcessor (process state message event custom extensions : Type) :=
  GlobalContext process state message event extensions → custom →
    GlobalContext process state message event extensions

section Environment

variable [DecidableEq process] [DecidableEq message] [DecidableEq event]

/-- One effect of a transition of `v`. -/
def runEffect (applyCustomEffect : EffectProcessor process state message event custom extensions)
    (v : process) (env : GlobalContext process state message event extensions) :
    Effect process message event custom →
      GlobalContext process state message event extensions
  | .broadcast msg => { env with messages := fun node => insert msg (env.messages node) }
  | .send target msg =>
      { env with
        messages := Function.update env.messages target (insert msg (env.messages target)) }
  | .triggerEvent ev =>
      { env with events := Function.update env.events v (insert ev (env.events v)) }
  | .customEffect effect => applyCustomEffect env effect

/-- A transition of `v` replaces its local state and folds the effects over the rest. -/
def applyEffect
    (applyCustomEffect : EffectProcessor process state message event custom extensions)
    (env : GlobalContext process state message event extensions) (v : process)
    (transition : Transition process state message event custom) :
    GlobalContext process state message event extensions :=
  transition.effects.foldl (runEffect applyCustomEffect v)
    { env with system := Function.update env.system v transition.postState }

/-- What `v` sees of the environment. -/
def convertContext (env : GlobalContext process state message event extensions) (v : process) :
    LocalContext state message event extensions where
  state := env.system v
  messages := env.messages v
  events := env.events v
  extensions := env.extensions

variable [DecidableEq state] [DecidableEq custom]

/-- The transitions a listener offers that have an effect or change the state. -/
def offered (listener : Listener process state message event custom extensions)
    (input : LocalContext state message event extensions) :
    Finset (Transition process state message event custom) :=
  (listener input).filter fun transition =>
    0 < transition.effects.length ∨ transition.postState ≠ input.state

/-- One of the transitions is taken: the one `pick` names. -/
def processTransitions
    (applyCustomEffect : EffectProcessor process state message event custom extensions)
    (env : GlobalContext process state message event extensions) (v : process)
    (transitions : Finset (Transition process state message event custom))
    (pick : Transition process state message event custom) :
    Option (GlobalContext process state message event extensions) :=
  if pick ∈ transitions then some (applyEffect applyCustomEffect env v pick) else none

/-- Any process takes any transition that it is offered. -/
def step (processes : Finset process)
    (listener : Listener process state message event custom extensions)
    (applyCustomEffect : EffectProcessor process state message event custom extensions) :
    Next (GlobalContext process state message event extensions)
      (process × Transition process state message event custom) :=
  fun env action =>
    if action.1 ∈ processes then
      processTransitions applyCustomEffect env action.1
        (offered listener (convertContext env action.1)) action.2
    else none

/-- `v` takes a transition that it is offered on the part `f` of its mailbox. -/
def stepWithMessages (v : process)
    (listener : Listener process state message event custom extensions)
    (applyCustomEffect : EffectProcessor process state message event custom extensions)
    (f : Finset message → Finset message)
    (env : GlobalContext process state message event extensions)
    (pick : Transition process state message event custom) :
    Option (GlobalContext process state message event extensions) :=
  let input := convertContext env v
  processTransitions applyCustomEffect env v
    (offered listener { input with messages := f input.messages }) pick

/-- A step whose transition is computed from what the process sees. -/
def act (processes : Finset process)
    (listener : Listener process state message event custom extensions)
    (applyCustomEffect : EffectProcessor process state message event custom extensions) :
    Next (GlobalContext process state message event extensions)
      (process × (LocalContext state message event extensions →
        Transition process state message event custom)) :=
  fun env action =>
    step processes listener applyCustomEffect env
      (action.1, action.2 (convertContext env action.1))

/-- Computed steps are steps. -/
theorem reachable_of_act {processes : Finset process}
    {listener : Listener process state message event custom extensions}
    {applyCustomEffect : EffectProcessor process state message event custom extensions}
    {start env : GlobalContext process state message event extensions}
    (run : Reachable (act processes listener applyCustomEffect) start env) :
    Reachable (step processes listener applyCustomEffect) start env :=
  run.invariant .refl fun _ reached steps => reached.tail steps

theorem step_eq_some_iff {processes : Finset process}
    {listener : Listener process state message event custom extensions}
    {applyCustomEffect : EffectProcessor process state message event custom extensions}
    {env later : GlobalContext process state message event extensions}
    {action : process × Transition process state message event custom} :
    step processes listener applyCustomEffect env action = some later ↔
      action.1 ∈ processes ∧
        action.2 ∈ offered listener (convertContext env action.1) ∧
        applyEffect applyCustomEffect env action.1 action.2 = later := by
  simp only [step, processTransitions, Option.ite_none_right_eq_some, Option.some.injEq]

end Environment

/-! ## What a transition leaves behind -/

/-- The effect puts `msg` into the mailbox of `node`. -/
def Effect.Reaches (node : process) (msg : message) :
    Effect process message event custom → Prop
  | .broadcast sent => sent = msg
  | .send target sent => target = node ∧ sent = msg
  | .triggerEvent _ | .customEffect _ => False

section Effects

variable [DecidableEq process] [DecidableEq message] [DecidableEq event]
variable {applyCustomEffect : EffectProcessor process state message event custom extensions}
variable {env : GlobalContext process state message event extensions}

/-- With no effects of its own, a choreography changes local states by transitions only. -/
theorem system_runEffect (plain : ∀ env effect, applyCustomEffect env effect = env) {v : process}
    {effect : Effect process message event custom} :
    (runEffect applyCustomEffect v env effect).system = env.system := by
  cases effect with
  | customEffect own => rw [runEffect, plain]
  | _ => rfl

theorem mem_messages_runEffect_iff (plain : ∀ env effect, applyCustomEffect env effect = env)
    {v node : process} {effect : Effect process message event custom} {msg : message} :
    msg ∈ (runEffect applyCustomEffect v env effect).messages node ↔
      msg ∈ env.messages node ∨ effect.Reaches node msg := by
  cases effect with
  | broadcast sent => simp [runEffect, Effect.Reaches, or_comm, eq_comm]
  | send target sent =>
      by_cases same : node = target
      · subst same
        simp [runEffect, Effect.Reaches, or_comm, eq_comm]
      · simp [runEffect, Effect.Reaches, Function.update_of_ne same, Ne.symm same]
  | triggerEvent ev => simp [runEffect, Effect.Reaches]
  | customEffect own => simp [runEffect, Effect.Reaches, plain]

theorem system_applyEffect (plain : ∀ env effect, applyCustomEffect env effect = env)
    {v : process} {transition : Transition process state message event custom} :
    (applyEffect applyCustomEffect env v transition).system =
      Function.update env.system v transition.postState := by
  -- the induction is on the effects still to come
  have kept : ∀ (effects : List (Effect process message event custom))
      (env : GlobalContext process state message event extensions),
      (effects.foldl (runEffect applyCustomEffect v) env).system = env.system := by
    intro effects
    induction effects with
    | nil => exact fun _ => rfl
    | cons effect rest ih =>
        intro env
        rw [List.foldl_cons, ih, system_runEffect plain]
  exact kept _ _

/-- What the new state of `v` has and every other process had, every process has. -/
theorem forall_system_applyEffect (plain : ∀ env effect, applyCustomEffect env effect = env)
    {v : process} {transition : Transition process state message event custom}
    {P : process → state → Prop} (moved : P v transition.postState)
    (others : ∀ node, node ≠ v → P node (env.system node)) (node : process) :
    P node ((applyEffect applyCustomEffect env v transition).system node) := by
  rw [system_applyEffect plain]
  by_cases same : node = v
  · subst same
    rw [Function.update_self]
    exact moved
  · rw [Function.update_of_ne same]
    exact others node same

/-- A mailbox holds what it held and what the effects of the transition put there. -/
theorem mem_messages_applyEffect_iff (plain : ∀ env effect, applyCustomEffect env effect = env)
    {v node : process} {transition : Transition process state message event custom}
    {msg : message} :
    msg ∈ (applyEffect applyCustomEffect env v transition).messages node ↔
      msg ∈ env.messages node ∨ ∃ effect ∈ transition.effects, effect.Reaches node msg := by
  have folded : ∀ (effects : List (Effect process message event custom))
      (env : GlobalContext process state message event extensions),
      msg ∈ (effects.foldl (runEffect applyCustomEffect v) env).messages node ↔
        msg ∈ env.messages node ∨ ∃ effect ∈ effects, effect.Reaches node msg := by
    intro effects
    induction effects with
    | nil => simp
    | cons effect rest ih =>
        intro env
        rw [List.foldl_cons, ih, mem_messages_runEffect_iff plain, List.exists_mem_cons_iff,
          or_assoc]
  exact folded _ _

end Effects

/-! ## Cues -/

/-- The transitions of `uponFn` for each parameter that `listenFn` hears. -/
def cue [DecidableEq process] [DecidableEq state] [DecidableEq message] [DecidableEq event]
    [DecidableEq custom] (ctx : LocalContext state message event extensions)
    (listenFn : LocalContext state message event extensions → Finset result)
    (uponFn : LocalContext state message event extensions → result →
      Transition process state message event custom) :
    Finset (Transition process state message event custom) :=
  (listenFn ctx).image (uponFn ctx)

@[simp]
theorem mem_cue_iff [DecidableEq process] [DecidableEq state] [DecidableEq message]
    [DecidableEq event] [DecidableEq custom]
    {ctx : LocalContext state message event extensions}
    {listenFn : LocalContext state message event extensions → Finset result}
    {uponFn : LocalContext state message event extensions → result →
      Transition process state message event custom}
    {transition : Transition process state message event custom} :
    transition ∈ cue ctx listenFn uponFn ↔
      ∃ param ∈ listenFn ctx, uponFn ctx param = transition :=
  Finset.mem_image

end Raspen.Choreo
