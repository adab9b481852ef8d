import Raspen.Transition.Pass

/-!
# Two passes in step

Two passes whose stages hear the same cues on related states end in related
states with the same effects, or both fail.  In particular a change of the state
that no guard reads can be made before a pass or after it.
-/

namespace Raspen.Transition

universe u v w

variable {σ : Type u} {κ : Type v} {ε : Type w} {perform : σ → κ → Option (σ × List ε)}
  {R : σ → σ → Prop} {put : σ → σ}

/-- Two outcomes with the same effects and related states. -/
def Matched (R : σ → σ → Prop) (ended ended' : σ × List ε) : Prop :=
  R ended.1 ended'.1 ∧ ended.2 = ended'.2

/-- Two stages that keep related states related and hear the same cues there. -/
structure Stage.Lockstep (R : σ → σ → Prop) (stage stage' : Stage σ κ) : Prop where
  store : ∀ s t, R s t → R (stage.store s) (stage'.store t)
  listen : ∀ s t, R s t → stage.listen (stage.store s) = stage'.listen (stage'.store t)

theorem Stage.Lockstep.run {stage stage' : Stage σ κ} {s t : σ}
    (performs : ∀ s t cue, R s t → Option.Rel (Matched R) (perform s cue) (perform t cue))
    (same : Stage.Lockstep R stage stage') (related : R s t) :
    Option.Rel (Matched R) (stage.run perform s) (stage'.run perform t) := by
  have stored := same.store s t related
  unfold Stage.run
  rw [← same.listen s t related]
  cases stage.listen (stage.store s) with
  | none => exact .some ⟨stored, rfl⟩
  | some cue => exact performs _ _ cue stored

/-- Two passes of stages in step, on related states, end alike. -/
theorem runStages_lockstep {stages stages' : List (Stage σ κ)} {s t : σ}
    (performs : ∀ s t cue, R s t → Option.Rel (Matched R) (perform s cue) (perform t cue))
    (same : List.Forall₂ (Stage.Lockstep R) stages stages') (related : R s t) :
    Option.Rel (Matched R) (runStages perform stages s) (runStages perform stages' t) := by
  induction same generalizing s t with
  | nil => exact .some ⟨related, rfl⟩
  | @cons stage stage' rest rest' head _ ih =>
      have first := head.run performs related
      simp only [runStages]
      generalize stage.run perform s = ended at first ⊢
      generalize stage'.run perform t = ended' at first ⊢
      cases first with
      | none => exact .none
      | @some middle middle' matched =>
          have later := ih matched.1
          simp only [Option.bind_eq_bind, Option.bind_some]
          generalize runStages perform rest middle.1 = ended at later ⊢
          generalize runStages perform rest' middle'.1 = ended' at later ⊢
          cases later with
          | none => exact .none
          | @some final final' finals =>
              exact .some ⟨finals.1, congrArg₂ (· ++ ·) matched.2 finals.2⟩

/-- A pass over two blocks runs the second block on what the first one has left. -/
theorem runStages_append (front back : List (Stage σ κ)) (state : σ) :
    runStages perform (front ++ back) state =
      (runStages perform front state).bind fun ended =>
        (runStages perform back ended.1).map fun later => (later.1, ended.2 ++ later.2) := by
  induction front generalizing state with
  | nil => simp [runStages]
  | cons stage rest ih =>
      simp only [List.cons_append, runStages, ih, Option.bind_eq_bind]
      cases stage.run perform state with
      | none => rfl
      | some first =>
          simp only [Option.bind_some]
          cases runStages perform rest first.1 with
          | none => rfl
          | some middle =>
              simp only [Option.bind_some, Option.pure_def]
              cases runStages perform back middle.1 with
              | none => rfl
              | some final => simp [List.append_assoc]

/-! ## A change that no guard reads -/

/-- A change of the state that commutes with the handlers and that no stage reads
commutes with the pass. -/
theorem runStages_put {stages : List (Stage σ κ)}
    (performs : ∀ s cue, perform (put s) cue =
      (perform s cue).map fun ended => (put ended.1, ended.2))
    (store : ∀ stage ∈ stages, ∀ s, stage.store (put s) = put (stage.store s))
    (listen : ∀ stage ∈ stages, ∀ s, stage.listen (put s) = stage.listen s) (state : σ) :
    runStages perform stages (put state) =
      (runStages perform stages state).map fun ended => (put ended.1, ended.2) := by
  have same : List.Forall₂ (Stage.Lockstep fun s t => t = put s) stages stages := by
    apply List.forall₂_same.mpr
    intro stage stageMem
    constructor
    · rintro s t rfl
      exact store stage stageMem s
    · rintro s t rfl
      rw [store stage stageMem, listen stage stageMem]
  have together : ∀ s t cue, t = put s →
      Option.Rel (Matched fun s t => t = put s) (perform s cue) (perform t cue) := by
    rintro s t cue rfl
    rw [performs]
    cases perform s cue with
    | none => exact .none
    | some ended => exact .some ⟨rfl, rfl⟩
  have ended := runStages_lockstep together same (rfl : put state = put state)
  generalize runStages perform stages state = first at ended ⊢
  generalize runStages perform stages (put state) = second at ended ⊢
  cases ended with
  | none => rfl
  | some matched => exact congrArg some (Prod.ext matched.1 matched.2.symm)

/-- A stage may make its change before the stages that do not read it. -/
theorem runStages_put_early (front : List (Stage σ κ)) {back : List (Stage σ κ)}
    {listen : σ → Option κ}
    (performs : ∀ s cue, perform (put s) cue =
      (perform s cue).map fun ended => (put ended.1, ended.2))
    (store : ∀ stage ∈ front, ∀ s, stage.store (put s) = put (stage.store s))
    (unread : ∀ stage ∈ front, ∀ s, stage.listen (put s) = stage.listen s) (state : σ) :
    runStages perform (front ++ ⟨put, listen⟩ :: back) state =
      runStages perform (front ++ .guard listen :: back) (put state) := by
  rw [runStages_append, runStages_append, runStages_put performs store unread, Option.bind_map]
  rfl

end Raspen.Transition
