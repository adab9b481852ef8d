import Raspen.Transition.Core

/-!
# Runs that only collect

Some systems collect: each action adds one item to a pool, and where the system
stands is a function of the pool alone.  When the pool does not depend on the
order of the items, neither does the run.
-/

namespace Raspen.Transition

universe u v w x

variable {σ : Type u} {α : Type v} {β : Type w} {μ : Type x}

/-- From a good pool every action with an allowed item moves the state that the pool
settles in to the one that the larger pool settles in. -/
structure Collects (next : Next σ α) (item : α → μ) (allowed : μ → Prop)
    (collect : β → μ → β) (good : β → Prop) (settle : β → Option σ) : Prop where
  comm : ∀ pool first second,
    collect (collect pool first) second = collect (collect pool second) first
  keeps : ∀ pool new, good pool → allowed new → good (collect pool new)
  step : ∀ pool action, good pool → allowed (item action) →
    ((settle pool).bind fun state => next state action) = settle (collect pool (item action))

namespace Collects

variable {next : Next σ α} {item : α → μ} {allowed : μ → Prop} {collect : β → μ → β}
  {good : β → Prop} {settle : β → Option σ} {pool : β} {start : σ} {actions actions' : List α}

/-- A run settles in what it has collected. -/
theorem bind_execute (collects : Collects next item allowed collect good settle)
    (isGood : good pool) (fine : ∀ action ∈ actions, allowed (item action)) :
    ((settle pool).bind fun state => execute next state actions) =
      settle ((actions.map item).foldl collect pool) := by
  induction actions generalizing pool with
  | nil => simp [execute]
  | cons action rest ih =>
      have here := fine action List.mem_cons_self
      have later := ih (collects.keeps pool _ isGood here)
        fun other otherMem => fine other (List.mem_cons_of_mem _ otherMem)
      rw [List.map_cons, List.foldl_cons, ← later, ← collects.step pool action isGood here,
        Option.bind_assoc]
      rfl

/-- A run that starts outside settles as soon as its first action does. -/
theorem execute_eq (collects : Collects next item allowed collect good settle)
    (isGood : good pool) (fine : ∀ action ∈ actions, allowed (item action))
    (first : ∀ action, allowed (item action) →
      next start action = settle (collect pool (item action))) (nonempty : actions ≠ []) :
    execute next start actions = settle ((actions.map item).foldl collect pool) := by
  cases actions with
  | nil => contradiction
  | cons action rest =>
      have here := fine action List.mem_cons_self
      rw [execute, first action here, List.map_cons, List.foldl_cons]
      exact collects.bind_execute (collects.keeps pool _ isGood here)
        fun other otherMem => fine other (List.mem_cons_of_mem _ otherMem)

/-- Runs over the same items end in the same state, whatever their order. -/
theorem execute_eq_of_perm (collects : Collects next item allowed collect good settle)
    (isGood : good pool) (fine : ∀ action ∈ actions, allowed (item action))
    (first : ∀ action, allowed (item action) →
      next start action = settle (collect pool (item action)))
    (perm : (actions.map item).Perm (actions'.map item)) :
    execute next start actions = execute next start actions' := by
  by_cases nonempty : actions = []
  · subst nonempty
    have empty : actions' = [] := List.map_eq_nil_iff.mp (List.nil_perm.mp perm)
    rw [empty]
  · have nonempty' : actions' ≠ [] := by
      rintro rfl
      exact nonempty (List.map_eq_nil_iff.mp (List.perm_nil.mp perm))
    have fine' : ∀ action ∈ actions', allowed (item action) := by
      intro action actionMem
      rcases List.mem_map.mp (perm.mem_iff.mpr (List.mem_map_of_mem actionMem)) with
        ⟨same, sameMem, sameItem⟩
      rw [← sameItem]
      exact fine same sameMem
    rw [collects.execute_eq isGood fine first nonempty,
      collects.execute_eq isGood fine' first nonempty']
    exact congrArg settle (perm.foldl_eq' (fun _ _ _ _ pool => collects.comm pool _ _) pool)

end Collects

end Raspen.Transition
