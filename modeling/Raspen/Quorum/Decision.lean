import Raspen.Transition.Core
import Mathlib.Logic.Function.Basic

/-!
# Write-once decisions

What agreement is for: each slot is decided at most once, and whoever adopts the
decision of a slot adopts the same value.
-/

namespace Raspen.Quorum

open Raspen.Transition

universe u v

variable {κ : Type u} {α : Type v}

/-- The values decided so far. -/
abbrev Decisions (κ : Type u) (α : Type v) := κ → Option α

namespace Decisions

/-- Nothing is decided. -/
def none : Decisions κ α :=
  fun _ => .none

variable [DecidableEq κ] [DecidableEq α]

/-- Adopt a value for a slot: the first one decides it, and a different one is
never adopted afterwards. -/
def adopt (decisions : Decisions κ α) (adoption : κ × α) : Option (Decisions κ α) :=
  match decisions adoption.1 with
  | .none => some (Function.update decisions adoption.1 (some adoption.2))
  | some decided => if decided = adoption.2 then some decisions else .none

/-- After an adoption its slot is decided, and the others are as before. -/
theorem adopt_eq_some_iff {decisions later : Decisions κ α} {adoption : κ × α} :
    decisions.adopt adoption = some later ↔
      (∀ decided, decisions adoption.1 = some decided → decided = adoption.2) ∧
        later = Function.update decisions adoption.1 (some adoption.2) := by
  unfold adopt
  cases decides : decisions adoption.1 with
  | none => simp [eq_comm]
  | some decided =>
      simp only [Option.ite_none_right_eq_some, Option.some.injEq, forall_eq']
      apply and_congr_right
      rintro rfl
      rw [← decides, Function.update_eq_self, eq_comm]

/-- A decision is final. -/
theorem decided_of_reachable {decisions later : Decisions κ α} {slot : κ} {value : α}
    (reached : Reachable adopt decisions later) (decided : decisions slot = some value) :
    later slot = some value := by
  apply reached.invariant (P := fun decisions => decisions slot = some value) decided
  intro earlier next adoption _ holds adopts
  obtain ⟨agrees, rfl⟩ := adopt_eq_some_iff.mp adopts
  by_cases same : slot = adoption.1
  · subst same
    rw [Function.update_self, agrees value holds]
  · rw [Function.update_of_ne same, holds]

end Decisions

end Raspen.Quorum
