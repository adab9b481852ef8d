import Raspen.Transition.Core

/-!
# Simulations

A simulation matches every step of a concrete system by finitely many steps of
an abstract one.  The match may rely on the concrete state being reachable, so
invariants of the concrete system can be used to establish it.
-/

namespace Raspen.Transition

universe u v w x

variable {σ : Type u} {α : Type v} {τ : Type w} {β : Type x}

/-- `related` simulates the concrete system by the abstract one. -/
structure Simulation (concrete : Next σ α) (start : σ) (abstract : Next τ β)
    (abstractStart : τ) (related : σ → τ → Prop) : Prop where
  starts : related start abstractStart
  step : ∀ {s s' t action}, Reachable concrete start s → related s t →
    concrete s action = some s' → ∃ t', Reachable abstract t t' ∧ related s' t'

namespace Simulation

variable {concrete : Next σ α} {start : σ} {abstract : Next τ β} {abstractStart : τ}
  {related : σ → τ → Prop}

/-- What the concrete system goes on to do from a reachable state, the abstract
one can do from a related state. -/
theorem exists_reachable (simulation : Simulation concrete start abstract abstractStart related)
    {s s' : σ} {t : τ} (reached : Reachable concrete start s) (relates : related s t)
    (later : Reachable concrete s s') : ∃ t', Reachable abstract t t' ∧ related s' t' := by
  induction later with
  | refl => exact ⟨t, .refl, relates⟩
  | tail earlier last ih =>
      rcases ih with ⟨middle, matched, relatesMiddle⟩
      rcases simulation.step (reached.trans earlier) relatesMiddle last with
        ⟨final, matchedLast, relatesFinal⟩
      exact ⟨final, matched.trans matchedLast, relatesFinal⟩

end Simulation

end Raspen.Transition
