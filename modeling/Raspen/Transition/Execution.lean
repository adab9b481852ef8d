import Raspen.Transition.Core
import Mathlib.Order.Filter.AtTopBot.Basic

/-!
# Infinite runs

An infinite run takes a step or rests at every moment.  What every step keeps holds from the
moment on at which it first holds.
-/

namespace Raspen.Transition

open Filter

universe u v

variable {σ : Type u} {α : Type v}

/-- An infinite run from `start`. -/
structure Execution (next : Next σ α) (start : σ) where
  state : ℕ → σ
  starts : state 0 = start
  steps : ∀ time, state (time + 1) = state time ∨
    ∃ action, next (state time) action = some (state (time + 1))

namespace Execution

variable {next : Next σ α} {start : σ} (execution : Execution next start)

theorem onwards {early late : ℕ} (inOrder : early ≤ late) :
    Reachable next (execution.state early) (execution.state late) := by
  induction late, inOrder using Nat.le_induction with
  | base => exact .refl
  | succ late _ ih =>
      rcases execution.steps late with rests | ⟨action, taken⟩
      · rw [rests]
        exact ih
      · exact ih.tail taken

theorem reachable (time : ℕ) : Reachable next start (execution.state time) := by
  have run := execution.onwards (Nat.zero_le time)
  rw [execution.starts] at run
  exact run

/-- What every step keeps holds for good once it holds. -/
theorem eventually_of_kept {P : σ → Prop} {time : ℕ} (holds : P (execution.state time))
    (keeps : ∀ {before action after}, P before → next before action = some after → P after) :
    ∀ᶠ late in atTop, P (execution.state late) := by
  filter_upwards [eventually_ge_atTop time] with late inOrder
  exact (execution.onwards inOrder).invariant holds fun _ before taken => keeps before taken

/-- A finite run, resting at its end. -/
def ofActions {actions : List α} {final : σ} (run : execute next start actions = some final) :
    Execution next start where
  state time := (execute next start (actions.take time)).getD start
  starts := rfl
  steps time := by
    by_cases inside : time < actions.length
    · right
      have whole : execute next start (actions.take time ++ actions[time] ::
          actions.drop (time + 1)) = some final := by
        rw [List.getElem_cons_drop, List.take_append_drop]
        exact run
      rw [execute_append] at whole
      rcases Option.bind_eq_some_iff.mp whole with ⟨state, front, back⟩
      rcases Option.bind_eq_some_iff.mp back with ⟨later, taken, _⟩
      have further : execute next start (actions.take (time + 1)) = some later := by
        rw [List.take_succ_eq_append_getElem inside, execute_append_single, front]
        exact taken
      rw [front, further]
      exact ⟨_, taken⟩
    · left
      have past := Nat.le_of_not_lt inside
      rw [List.take_of_length_le past, List.take_of_length_le (past.trans (Nat.le_succ time))]

theorem ofActions_state {actions : List α} {final : σ}
    (run : execute next start actions = some final) {time : ℕ} (past : actions.length ≤ time) :
    (ofActions run).state time = final := by
  simp [ofActions, List.take_of_length_le past, run]

theorem onwards_ofActions {actions : List α} {final : σ}
    (run : execute next start actions = some final) (time : ℕ) :
    Reachable next ((ofActions run).state time) final := by
  have run' := (ofActions run).onwards (Nat.le_max_left time actions.length)
  rw [ofActions_state run (Nat.le_max_right _ _)] at run'
  exact run'

end Execution

end Raspen.Transition
