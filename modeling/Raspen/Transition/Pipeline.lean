import Mathlib.Data.List.Basic

/-!
# Pipelines of guarded handlers

A reactive component often answers one input by a fixed sequence of stages: a
stage first records the input, then evaluates a guard on the recorded state,
and runs a handler when the guard names one.  This module gives such a pipeline
its meaning and the rules by which facts about single handlers become facts
about the whole pass.

`σ` is the component's state, `κ` the type of handler invocations (cues) and
`ε` the type of emitted effects.  A handler may fail, and failure ends the pass.
-/

namespace Raspen.Transition

universe u v w

variable {σ : Type u} {κ : Type v} {ε : Type w}

/-- One stage: record the input, then listen for a cue. -/
structure Stage (σ : Type u) (κ : Type v) where
  store : σ → σ
  listen : σ → Option κ

/-- A stage that records nothing. -/
def Stage.guard (listen : σ → Option κ) : Stage σ κ :=
  ⟨id, listen⟩

/-- Run one stage. -/
def Stage.run (perform : σ → κ → Option (σ × List ε)) (stage : Stage σ κ) (state : σ) :
    Option (σ × List ε) :=
  match stage.listen (stage.store state) with
  | some cue => perform (stage.store state) cue
  | none => some (stage.store state, [])

/-- Run the stages in order and collect their effects. -/
def runStages (perform : σ → κ → Option (σ × List ε)) :
    List (Stage σ κ) → σ → Option (σ × List ε)
  | [], state => some (state, [])
  | stage :: rest, state => do
      let (middle, first) ← stage.run perform state
      let (final, others) ← runStages perform rest middle
      pure (final, first ++ others)

/-- The cues performed by a pass, each with the state it was performed on. -/
def fired (perform : σ → κ → Option (σ × List ε)) :
    List (Stage σ κ) → σ → List (σ × κ)
  | [], _ => []
  | stage :: rest, state =>
      ((stage.listen (stage.store state)).map fun cue => (stage.store state, cue)).toList ++
        match stage.run perform state with
        | some (middle, _) => fired perform rest middle
        | none => []

variable {perform : σ → κ → Option (σ × List ε)}

/-- A stage that runs either hears nothing or performs the cue it hears. -/
theorem Stage.run_cases {stage : Stage σ κ} {state next : σ} {effects : List ε}
    (run : stage.run perform state = some (next, effects)) :
    (stage.listen (stage.store state) = none ∧ next = stage.store state ∧ effects = []) ∨
      ∃ cue, stage.listen (stage.store state) = some cue ∧
        perform (stage.store state) cue = some (next, effects) := by
  unfold Stage.run at run
  cases listens : stage.listen (stage.store state) with
  | none =>
      rw [listens] at run
      cases run
      exact .inl ⟨rfl, rfl, rfl⟩
  | some cue =>
      rw [listens] at run
      exact .inr ⟨cue, rfl, run⟩

theorem runStages_cons_eq_some_iff {stage : Stage σ κ} {rest : List (Stage σ κ)}
    {state final : σ} {effects : List ε} :
    runStages perform (stage :: rest) state = some (final, effects) ↔
      ∃ middle first others, stage.run perform state = some (middle, first) ∧
        runStages perform rest middle = some (final, others) ∧ effects = first ++ others := by
  simp only [runStages, Option.bind_eq_bind, Option.bind_eq_some_iff, Option.pure_def,
    Option.some.injEq, Prod.mk.injEq, Prod.exists]
  constructor
  · rintro ⟨middle, first, head, last, others, tail, rfl, rfl⟩
    exact ⟨middle, first, others, head, tail, rfl⟩
  · rintro ⟨middle, first, others, head, tail, rfl⟩
    exact ⟨middle, first, head, final, others, tail, rfl, rfl⟩

/-- A pass over two consecutive blocks of stages is two passes. -/
theorem runStages_append_eq_some_iff {front back : List (Stage σ κ)}
    {state final : σ} {effects : List ε} :
    runStages perform (front ++ back) state = some (final, effects) ↔
      ∃ middle first others, runStages perform front state = some (middle, first) ∧
        runStages perform back middle = some (final, others) ∧ effects = first ++ others := by
  induction front generalizing state effects with
  | nil => simp [runStages]
  | cons stage rest ih =>
      rw [List.cons_append, runStages_cons_eq_some_iff]
      constructor
      · rintro ⟨middle, first, others, head, tail, rfl⟩
        rcases ih.mp tail with ⟨later, second, third, front, back, rfl⟩
        exact ⟨later, first ++ second, third,
          runStages_cons_eq_some_iff.mpr ⟨middle, first, second, head, front, rfl⟩,
          back, (List.append_assoc ..).symm⟩
      · rintro ⟨middle, first, others, front, back, rfl⟩
        rcases runStages_cons_eq_some_iff.mp front with ⟨early, second, third, head, tail, rfl⟩
        exact ⟨early, second, third ++ others, head,
          ih.mpr ⟨middle, third, others, tail, back, rfl⟩, List.append_assoc ..⟩

/-! ## Fired cues -/

/-- The first stage of a pass fires its cue, or a later one does on the state the
first has left. -/
theorem mem_fired_cons {stage : Stage σ κ} {rest : List (Stage σ κ)} {state : σ} {firing : σ × κ}
    (fires : firing ∈ fired perform (stage :: rest) state) :
    (firing.1 = stage.store state ∧ stage.listen firing.1 = some firing.2) ∨
      ∃ middle effects, stage.run perform state = some (middle, effects) ∧
        firing ∈ fired perform rest middle := by
  rcases List.mem_append.mp fires with here | later
  · rcases Option.map_eq_some_iff.mp (Option.mem_toList.mp here) with ⟨cue, listens, rfl⟩
    exact .inl ⟨rfl, listens⟩
  · cases run : stage.run perform state with
    | none => simp [run] at later
    | some outcome =>
        rw [run] at later
        exact .inr ⟨outcome.1, outcome.2, rfl, later⟩

/-- A fired cue was heard by some stage on the state it fired on. -/
theorem exists_stage_of_mem_fired {stages : List (Stage σ κ)} {state : σ} {firing : σ × κ}
    (fires : firing ∈ fired perform stages state) :
    ∃ stage ∈ stages, stage.listen firing.1 = some firing.2 := by
  induction stages generalizing state with
  | nil => simp [fired] at fires
  | cons stage rest ih =>
      rcases mem_fired_cons fires with ⟨_, listens⟩ | ⟨middle, _, _, later⟩
      · exact ⟨stage, List.mem_cons_self, listens⟩
      · rcases ih later with ⟨heard, heardMem, listens⟩
        exact ⟨heard, List.mem_cons_of_mem _ heardMem, listens⟩

/-! ## Traces of atomic moves -/

/-- Finitely many moves in a row, with the effects they emit. -/
inductive Chain (move : σ → σ → List ε → Prop) (start : σ) : σ → List ε → Prop
  | refl : Chain move start start []
  | tail {middle final : σ} {earlier later : List ε} :
      Chain move start middle earlier → move middle final later →
      Chain move start final (earlier ++ later)

namespace Chain

variable {move : σ → σ → List ε → Prop} {start middle final : σ} {earlier later : List ε}

theorem single (step : move start final later) : Chain move start final later := by
  simpa using Chain.tail Chain.refl step

theorem trans (first : Chain move start middle earlier) (second : Chain move middle final later) :
    Chain move start final (earlier ++ later) := by
  induction second with
  | refl => simpa using first
  | tail _ step ih => simpa using Chain.tail ih step

/-- What every move preserves, a chain of moves preserves.  The property sees
the effects emitted so far. -/
theorem preserves {P : σ → List ε → Prop} {trace : List ε}
    (chain : Chain move start final later)
    (step : ∀ {s t trace effects}, P s trace → move s t effects → P t (trace ++ effects))
    (holds : P start trace) : P final (trace ++ later) := by
  induction chain with
  | refl => simpa using holds
  | tail _ last ih => simpa using step ih last

/-- What every move emits, a chain of moves emits. -/
theorem forall_effects {P : ε → Prop} (chain : Chain move start final later)
    (each : ∀ {s t effects}, move s t effects → ∀ effect ∈ effects, P effect) :
    ∀ effect ∈ later, P effect := by
  induction chain with
  | refl => simp
  | tail _ last ih =>
      intro effect effectMem
      rcases List.mem_append.mp effectMem with old | new
      · exact ih effect old
      · exact each last effect new

end Chain

/-- The atomic moves of a pass: recording the input, and performing a cue that
some stage listens for. -/
inductive StageMove (perform : σ → κ → Option (σ × List ε)) (stages : List (Stage σ κ))
    (state : σ) : σ → List ε → Prop
  | store {stage : Stage σ κ} :
      stage ∈ stages → StageMove perform stages state (stage.store state) []
  | perform {stage : Stage σ κ} {cue : κ} {next : σ} {effects : List ε} :
      stage ∈ stages → stage.listen state = some cue → perform state cue = some (next, effects) →
      StageMove perform stages state next effects

theorem StageMove.mono {small large : List (Stage σ κ)} (sub : small ⊆ large)
    {state next : σ} {effects : List ε} (move : StageMove perform small state next effects) :
    StageMove perform large state next effects := by
  cases move with
  | store mem => exact .store (sub mem)
  | perform mem listens performs => exact .perform (sub mem) listens performs

theorem Chain.mono {move wider : σ → σ → List ε → Prop}
    (weaken : ∀ {s t effects}, move s t effects → wider s t effects)
    {start final : σ} {effects : List ε} (chain : Chain move start final effects) :
    Chain wider start final effects := by
  induction chain with
  | refl => exact .refl
  | tail _ last ih => exact .tail ih (weaken last)

/-- A successful stage is a recording move, possibly followed by one cue. -/
theorem Stage.chain_of_run {stage : Stage σ κ} {state next : σ} {effects : List ε}
    (run : stage.run perform state = some (next, effects)) :
    Chain (StageMove perform [stage]) state next effects := by
  have stored : Chain (StageMove perform [stage]) state (stage.store state) ([] : List ε) :=
    .single (.store (List.mem_singleton.mpr rfl))
  rcases stage.run_cases run with ⟨_, rfl, rfl⟩ | ⟨cue, listens, performs⟩
  · exact stored
  · simpa using stored.tail (.perform (List.mem_singleton.mpr rfl) listens performs)

/-- A successful pass is a chain of atomic moves. -/
theorem chain_of_runStages {stages : List (Stage σ κ)} {state final : σ} {effects : List ε}
    (run : runStages perform stages state = some (final, effects)) :
    Chain (StageMove perform stages) state final effects := by
  induction stages generalizing state effects with
  | nil =>
      cases run
      exact .refl
  | cons stage rest ih =>
      rcases runStages_cons_eq_some_iff.mp run with ⟨middle, first, others, head, tail, rfl⟩
      have early : Chain (StageMove perform (stage :: rest)) state middle first :=
        (stage.chain_of_run head).mono (StageMove.mono (by simp))
      have late : Chain (StageMove perform (stage :: rest)) middle final others :=
        (ih tail).mono (StageMove.mono (by simp))
      exact early.trans late

/-! ## Traces of fired cues -/

/-- The atomic moves of a pass, labelled with the cues they perform. -/
inductive CueMove (perform : σ → κ → Option (σ × List ε)) (stages : List (Stage σ κ))
    (state : σ) : σ → List (σ × κ) → Prop
  | store {stage : Stage σ κ} : stage ∈ stages → CueMove perform stages state (stage.store state) []
  | perform {stage : Stage σ κ} {cue : κ} {next : σ} {effects : List ε} :
      stage ∈ stages → stage.listen state = some cue → perform state cue = some (next, effects) →
      CueMove perform stages state next [(state, cue)]

theorem CueMove.mono {small large : List (Stage σ κ)} (sub : small ⊆ large)
    {state next : σ} {firings : List (σ × κ)} (move : CueMove perform small state next firings) :
    CueMove perform large state next firings := by
  cases move with
  | store mem => exact .store (sub mem)
  | perform mem listens performs => exact .perform (sub mem) listens performs

/-- A successful pass is a chain of moves that perform exactly its fired cues. -/
theorem cueChain_of_runStages {stages : List (Stage σ κ)} {state final : σ} {effects : List ε}
    (run : runStages perform stages state = some (final, effects)) :
    Chain (CueMove perform stages) state final (fired perform stages state) := by
  induction stages generalizing state effects with
  | nil =>
      cases run
      exact .refl
  | cons stage rest ih =>
      rcases runStages_cons_eq_some_iff.mp run with ⟨middle, first, others, head, tail, rfl⟩
      have late : Chain (CueMove perform (stage :: rest)) middle final
          (fired perform rest middle) :=
        (ih tail).mono (CueMove.mono (by simp))
      have stored : Chain (CueMove perform (stage :: rest)) state (stage.store state) [] :=
        .single (.store List.mem_cons_self)
      simp only [fired, head]
      rcases stage.run_cases head with ⟨silent, rfl, _⟩ | ⟨cue, listens, performs⟩
      · rw [silent]
        simpa using stored.trans late
      · rw [listens]
        have performed := stored.tail (.perform List.mem_cons_self listens performs)
        simpa using performed.trans late

end Raspen.Transition
