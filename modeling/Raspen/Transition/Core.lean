import Mathlib.Data.List.Basic

/-!
# Labelled partial transitions

A transition system is a partial function of a state and an action.  An
undefined step is never totalized: a run stops there.
-/

namespace Raspen.Transition

universe u v

variable {σ : Type u} {α : Type v}

/-- A partial labelled transition function. -/
abbrev Next (σ : Type u) (α : Type v) := σ → α → Option σ

/-- States reached from `start` by finitely many defined steps. -/
inductive Reachable (next : Next σ α) (start : σ) : σ → Prop
  | refl : Reachable next start start
  | tail {middle final : σ} {action : α} :
      Reachable next start middle → next middle action = some final →
      Reachable next start final

/-- Execute a list of actions.  Failure at any action fails the run. -/
def execute (next : Next σ α) : σ → List α → Option σ
  | state, [] => some state
  | state, action :: rest => (next state action).bind fun middle => execute next middle rest

namespace Reachable

variable {next : Next σ α} {start middle final : σ}

theorem trans (first : Reachable next start middle) (second : Reachable next middle final) :
    Reachable next start final := by
  induction second with
  | refl => exact first
  | tail _ step ih => exact ih.tail step

/-- A property that holds at the start and is kept by every defined step holds
of every reachable state. -/
theorem invariant {P : σ → Prop} (reachable : Reachable next start final) (holds : P start)
    (step : ∀ {s t action}, Reachable next start s → P s → next s action = some t → P t) :
    P final := by
  induction reachable with
  | refl => exact holds
  | tail earlier last ih => exact step earlier ih last

end Reachable

/-- What holds of the start and no actions, and of every further state and the actions up to
it, holds of a whole run. -/
theorem execute_induction {next : Next σ α} {start final : σ} {actions : List α}
    {P : List α → σ → Prop} (run : execute next start actions = some final) (holds : P [] start)
    (step : ∀ {before state action later}, P before state → next state action = some later →
      P (before ++ [action]) later) : P actions final := by
  -- the induction is on the actions still to come
  have onwards : ∀ before state, execute next state actions = some final → P before state →
      P (before ++ actions) final := by
    clear run holds
    induction actions with
    | nil =>
        intro before state run holds
        cases run
        rw [List.append_nil]
        exact holds
    | cons action rest ih =>
        intro before state run holds
        rcases Option.bind_eq_some_iff.mp run with ⟨middle, first, later⟩
        rw [List.append_cons]
        exact ih (before ++ [action]) middle later (step holds first)
  exact onwards [] start run holds

/-- Execution splits wherever its list of actions does. -/
theorem execute_append {next : Next σ α} {start : σ} {first later : List α} :
    execute next start (first ++ later) =
      (execute next start first).bind fun state => execute next state later := by
  induction first generalizing start with
  | nil => rfl
  | cons action rest ih =>
      rw [List.cons_append, execute, execute, Option.bind_assoc]
      exact Option.bind_congr fun _ _ => ih

theorem execute_append_single {next : Next σ α} {start : σ} {actions : List α} {action : α} :
    execute next start (actions ++ [action]) =
      (execute next start actions).bind fun state => next state action := by
  simp [execute_append, execute]

/-- Executed states are reachable. -/
theorem reachable_of_execute {next : Next σ α} {start final : σ} {actions : List α}
    (run : execute next start actions = some final) : Reachable next start final :=
  execute_induction (P := fun _ state => Reachable next start state) run .refl
    fun earlier last => earlier.tail last

/-- The steps that a list of actions takes, each with the state it is taken in. -/
def trail (next : Next σ α) : σ → List α → List (σ × α)
  | _, [] => []
  | state, action :: rest =>
      match next state action with
      | some middle => (state, action) :: trail next middle rest
      | none => []

/-- A step of the trail is taken after some of the actions and before the others. -/
theorem mem_trail_iff {next : Next σ α} {start : σ} {actions : List α} {step : σ × α} :
    step ∈ trail next start actions ↔
      ∃ before rest, actions = before ++ step.2 :: rest ∧
        execute next start before = some step.1 ∧ ∃ later, next step.1 step.2 = some later := by
  induction actions generalizing start with
  | nil => simp [trail]
  | cons action rest ih =>
      constructor
      · intro stepMem
        cases taken : next start action with
        | none => simp [trail, taken] at stepMem
        | some middle =>
            simp only [trail, taken, List.mem_cons] at stepMem
            rcases stepMem with rfl | later
            · exact ⟨[], rest, rfl, rfl, middle, taken⟩
            · obtain ⟨before, others, rfl, run, final⟩ := ih.mp later
              refine ⟨action :: before, others, rfl, ?_, final⟩
              rw [execute, taken, Option.bind_some, run]
      · rintro ⟨before, others, split, run, later, final⟩
        cases before with
        | nil =>
            cases split
            cases run
            simp [trail, final]
        | cons first before =>
            cases split
            rcases Option.bind_eq_some_iff.mp run with ⟨middle, taken, run⟩
            rw [trail, taken]
            exact List.mem_cons_of_mem _ (ih.mpr ⟨before, others, rfl, run, later, final⟩)

/-- The steps that a list of actions attempts, each with the state it is attempted in.
A step that fails is the last one. -/
def attempts (next : Next σ α) : σ → List α → List (σ × α)
  | _, [] => []
  | state, action :: rest =>
      (state, action) ::
        match next state action with
        | some middle => attempts next middle rest
        | none => []

/-- A step is attempted after some of the actions and before the others. -/
theorem exists_execute_of_mem_attempts {next : Next σ α} {start : σ} {actions : List α}
    {step : σ × α} (stepMem : step ∈ attempts next start actions) :
    ∃ before rest, actions = before ++ step.2 :: rest ∧
      execute next start before = some step.1 := by
  induction actions generalizing start with
  | nil => simp [attempts] at stepMem
  | cons action rest ih =>
      rcases List.mem_cons.mp stepMem with rfl | later
      · exact ⟨[], rest, rfl, rfl⟩
      · cases taken : next start action with
        | none => simp [taken] at later
        | some middle =>
            rw [taken] at later
            rcases ih later with ⟨before, others, rfl, run⟩
            refine ⟨action :: before, others, rfl, ?_⟩
            rw [execute, taken, Option.bind_some, run]

/-- A list of actions is executed to its end when no attempted step fails. -/
theorem exists_execute_iff {next : Next σ α} {start : σ} {actions : List α} :
    (∃ final, execute next start actions = some final) ↔
      ∀ step ∈ attempts next start actions, next step.1 step.2 ≠ none := by
  induction actions generalizing start with
  | nil => simp [attempts, execute]
  | cons action rest ih =>
      cases taken : next start action with
      | none => simp [attempts, execute, taken]
      | some middle => simp [attempts, execute, taken, ih]

end Raspen.Transition
