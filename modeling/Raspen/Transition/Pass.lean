import Raspen.Transition.Pipeline
import Mathlib.Data.List.Forall2

/-!
# Rules for one pass

What every stage preserves, a pass preserves.  What a cue leaves behind survives
the pass when the cues that come after it preserve it, and the order of the
stages says which cues these are.
-/

namespace Raspen.Transition

universe u v w

variable {σ : Type u} {κ : Type v} {ε : Type w} {perform : σ → κ → Option (σ × List ε)}
  {stages : List (Stage σ κ)} {state final : σ} {effects : List ε}

/-- A property of the state and of the cues fired so far that recording and every
allowed cue keep holds at the end of a pass of allowed cues. -/
theorem fired_invariant {P : σ → List (σ × κ) → Prop} {allowed : σ → κ → Prop}
    {past : List (σ × κ)}
    (store : ∀ {stage s trace}, stage ∈ stages → P s trace → P (stage.store s) trace)
    (cue : ∀ {stage s cue next emitted trace}, stage ∈ stages → P s trace → allowed s cue →
      stage.listen s = some cue → perform s cue = some (next, emitted) →
      P next (trace ++ [(s, cue)]))
    (fires : ∀ firing ∈ fired perform stages state, allowed firing.1 firing.2)
    (holds : P state past) (run : runStages perform stages state = some (final, effects)) :
    P final (past ++ fired perform stages state) := by
  have moves := cueChain_of_runStages run
  generalize fired perform stages state = firings at fires moves ⊢
  clear run
  induction moves with
  | refl => simpa using holds
  | tail _ last ih =>
      have before := ih fun firing firingMem => fires firing (List.mem_append_left _ firingMem)
      rw [← List.append_assoc]
      cases last with
      | store stageMem =>
          rw [List.append_nil]
          exact store stageMem before
      | perform stageMem listens performs =>
          exact cue stageMem before (fires _ (List.mem_append_right _ List.mem_cons_self))
            listens performs

/-- A property of the state and of the effects so far that recording and every allowed cue
keep holds at the end of a pass of allowed cues. -/
theorem emitted_invariant {P : σ → List ε → Prop} {allowed : σ → κ → Prop} {past : List ε}
    (store : ∀ {stage s trace}, stage ∈ stages → P s trace → P (stage.store s) trace)
    (cue : ∀ {stage s cue next emitted trace}, stage ∈ stages → P s trace → allowed s cue →
      stage.listen s = some cue → perform s cue = some (next, emitted) →
      P next (trace ++ emitted))
    (fires : ∀ firing ∈ fired perform stages state, allowed firing.1 firing.2)
    (holds : P state past) (run : runStages perform stages state = some (final, effects)) :
    P final (past ++ effects) := by
  induction stages generalizing state past effects with
  | nil =>
      cases run
      simpa using holds
  | cons stage rest ih =>
      rcases runStages_cons_eq_some_iff.mp run with ⟨middle, first, others, head, tail, rfl⟩
      have stored := store List.mem_cons_self holds
      have later : ∀ firing ∈ fired perform rest middle, allowed firing.1 firing.2 := by
        intro firing firingMem
        apply fires
        simp only [fired, head]
        exact List.mem_append_right _ firingMem
      have reached : P middle (past ++ first) := by
        rcases stage.run_cases head with ⟨_, rfl, rfl⟩ | ⟨heard, listens, performs⟩
        · simpa using stored
        · have isAllowed : allowed (stage.store state) heard := by
            apply fires (stage.store state, heard)
            simp [fired, listens]
          exact cue List.mem_cons_self stored isAllowed listens performs
      rw [← List.append_assoc]
      exact ih (fun stageMem => store (List.mem_cons_of_mem _ stageMem))
        (fun stageMem => cue (List.mem_cons_of_mem _ stageMem)) later reached tail

/-- Recording preserves `P`, and so does every allowed cue that a stage hears. -/
structure Preserves (perform : σ → κ → Option (σ × List ε)) (stages : List (Stage σ κ))
    (allowed : σ → κ → Prop) (P : σ → Prop) : Prop where
  store : ∀ stage ∈ stages, ∀ s, P s → P (stage.store s)
  cue : ∀ stage ∈ stages, ∀ s cue next emitted, P s → allowed s cue →
    stage.listen s = some cue → perform s cue = some (next, emitted) → P next

namespace Preserves

variable {allowed : σ → κ → Prop} {P : σ → Prop}

theorem mono {small large : List (Stage σ κ)} (sub : small ⊆ large)
    (preserves : Preserves perform large allowed P) : Preserves perform small allowed P where
  store stage stageMem := preserves.store stage (sub stageMem)
  cue stage stageMem := preserves.cue stage (sub stageMem)

/-- What the stages preserve holds when the pass is over, and on every state on
which a cue fired. -/
theorem of_runStages (preserves : Preserves perform stages allowed P) (holds : P state)
    (fires : ∀ firing ∈ fired perform stages state, allowed firing.1 firing.2)
    (run : runStages perform stages state = some (final, effects)) :
    P final ∧ ∀ firing ∈ fired perform stages state, P firing.1 := by
  have start : P state ∧ ∀ firing ∈ ([] : List (σ × κ)), P firing.1 := ⟨holds, by simp⟩
  refine fired_invariant (P := fun s trace => P s ∧ ∀ firing ∈ trace, P firing.1)
    ?_ ?_ fires start run
  · rintro stage s trace stageMem ⟨holds, past⟩
    exact ⟨preserves.store stage stageMem s holds, past⟩
  · rintro stage s cue next emitted trace stageMem ⟨holds, past⟩ isAllowed listens performs
    constructor
    · exact preserves.cue stage stageMem s cue next emitted holds isAllowed listens performs
    · intro firing firingMem
      rcases List.mem_append.mp firingMem with old | new
      · exact past firing old
      · rw [List.mem_singleton.mp new]
        exact holds

end Preserves

/-- What recording and every cue of the stages preserve, a pass preserves. -/
theorem runStages_preserves {P : σ → Prop}
    (preserves : Preserves perform stages (fun _ _ => True) P) (holds : P state)
    (run : runStages perform stages state = some (final, effects)) : P final :=
  (preserves.of_runStages holds (fun _ _ => trivial) run).1

/-- What the store of some stage establishes and the whole pass preserves holds at
its end. -/
theorem holds_of_store {P : σ → Prop} {stage : Stage σ κ} (stageMem : stage ∈ stages)
    (establishes : ∀ s, P (stage.store s))
    (preserves : Preserves perform stages (fun _ _ => True) P)
    (run : runStages perform stages state = some (final, effects)) : P final := by
  induction stages generalizing state effects with
  | nil => contradiction
  | cons head rest ih =>
      rcases runStages_cons_eq_some_iff.mp run with ⟨middle, first, others, start, tail, _⟩
      have restPreserves := preserves.mono (List.subset_cons_self head rest)
      rcases List.mem_cons.mp stageMem with rfl | inRest
      · have established := establishes state
        rcases stage.run_cases start with ⟨_, rfl, _⟩ | ⟨cue, listens, performs⟩
        · exact runStages_preserves restPreserves established tail
        · have kept := preserves.cue stage List.mem_cons_self _ cue middle first established
            trivial listens performs
          exact runStages_preserves restPreserves kept tail
      · exact ih inRest restPreserves tail

/-- A stage that neither stores nor hears anything is skipped. -/
theorem runStages_cons_of_silent {stage : Stage σ κ} {rest : List (Stage σ κ)}
    (stores : stage.store state = state) (silent : stage.listen state = none) :
    runStages perform (stage :: rest) state = runStages perform rest state := by
  simp only [runStages, Stage.run, stores, silent, Option.bind_eq_bind, Option.bind_some]
  cases runStages perform rest state <;> rfl

theorem fired_cons_of_silent {stage : Stage σ κ} {rest : List (Stage σ κ)}
    (stores : stage.store state = state) (silent : stage.listen state = none) :
    fired perform (stage :: rest) state = fired perform rest state := by
  simp [fired, Stage.run, stores, silent]

/-- A stage that hears a cue performs it before the others run. -/
theorem runStages_cons_of_heard {stage : Stage σ κ} {rest : List (Stage σ κ)} {cue : κ}
    {next : σ} (stores : stage.store state = state) (hears : stage.listen state = some cue)
    (performs : perform state cue = some (next, effects)) :
    runStages perform (stage :: rest) state =
      (runStages perform rest next).map fun later => (later.1, effects ++ later.2) := by
  simp only [runStages, Stage.run, stores, hears, performs, Option.bind_eq_bind,
    Option.bind_some]
  cases runStages perform rest next <;> rfl

theorem runStages_cons_of_failed {stage : Stage σ κ} {rest : List (Stage σ κ)} {cue : κ}
    (stores : stage.store state = state) (hears : stage.listen state = some cue)
    (fails : perform state cue = none) : runStages perform (stage :: rest) state = none := by
  simp [runStages, Stage.run, stores, hears, fails]

/-- A pass in which no stage stores or hears anything changes nothing. -/
theorem runStages_of_silent
    (silent : ∀ stage ∈ stages, stage.store state = state ∧ stage.listen state = none) :
    runStages perform stages state = some (state, []) := by
  induction stages with
  | nil => rfl
  | cons stage rest ih =>
      obtain ⟨stores, listens⟩ := silent stage List.mem_cons_self
      rw [runStages_cons_of_silent stores listens]
      exact ih fun other otherMem => silent other (List.mem_cons_of_mem _ otherMem)

/-- Where no stage stores anything and every cue it hears shows in the effects, a pass
without effects has heard nothing. -/
theorem silent_of_no_effects (stores : ∀ stage ∈ stages, stage.store state = state)
    (shows : ∀ stage ∈ stages, ∀ cue next emitted, stage.listen state = some cue →
      perform state cue = some (next, emitted) → emitted ≠ [])
    (run : runStages perform stages state = some (final, [])) :
    final = state ∧ ∀ stage ∈ stages, stage.listen state = none := by
  induction stages with
  | nil =>
      cases run
      simp
  | cons stage rest ih =>
      rcases runStages_cons_eq_some_iff.mp run with ⟨middle, first, others, head, tail, split⟩
      obtain ⟨rfl, rfl⟩ := List.append_eq_nil_iff.mp split.symm
      have stays := stores stage List.mem_cons_self
      rcases stage.run_cases head with ⟨silent, rfl, _⟩ | ⟨cue, listens, performs⟩
      · rw [stays] at silent tail
        obtain ⟨same, restSilent⟩ := ih (fun other otherMem => stores other (.tail _ otherMem))
          (fun other otherMem => shows other (.tail _ otherMem)) tail
        constructor
        · exact same
        · intro any anyMem
          rcases List.mem_cons.mp anyMem with rfl | inRest
          · exact silent
          · exact restSilent any inRest
      · rw [stays] at listens performs
        exact absurd rfl (shows stage List.mem_cons_self cue middle [] listens performs)

/-- A pass over two blocks fires the cues of the first one, then those of the
second one on the state the first has left. -/
theorem fired_append {front back : List (Stage σ κ)} {middle : σ}
    (run : runStages perform front state = some (middle, effects)) :
    fired perform (front ++ back) state =
      fired perform front state ++ fired perform back middle := by
  induction front generalizing state effects with
  | nil =>
      cases run
      rfl
  | cons stage rest ih =>
      rcases runStages_cons_eq_some_iff.mp run with ⟨next, first, others, head, later, _⟩
      simp only [List.cons_append, fired, head, ih later, List.append_assoc]

/-- Every effect of a pass was emitted by one of its fired cues. -/
theorem exists_firing_of_mem_effects {effect : ε}
    (run : runStages perform stages state = some (final, effects)) (effectMem : effect ∈ effects) :
    ∃ firing ∈ fired perform stages state, ∃ next emitted,
      perform firing.1 firing.2 = some (next, emitted) ∧ effect ∈ emitted := by
  induction stages generalizing state effects with
  | nil =>
      cases run
      contradiction
  | cons stage rest ih =>
      rcases runStages_cons_eq_some_iff.mp run with ⟨middle, first, others, head, tail, rfl⟩
      simp only [fired, head]
      rcases List.mem_append.mp effectMem with here | later
      · rcases stage.run_cases head with ⟨_, _, rfl⟩ | ⟨cue, listens, performs⟩
        · contradiction
        · exact ⟨(stage.store state, cue), List.mem_append_left _ (by simp [listens]),
            middle, first, performs, here⟩
      · obtain ⟨firing, firingMem, emits⟩ := ih tail later
        exact ⟨firing, List.mem_append_right _ firingMem, emits⟩

/-- A fired cue was performed, and its effects are effects of the pass. -/
theorem performs_of_fired {s : σ} {cue : κ}
    (run : runStages perform stages state = some (final, effects))
    (fires : (s, cue) ∈ fired perform stages state) :
    ∃ next emitted, perform s cue = some (next, emitted) ∧
      ∀ effect ∈ emitted, effect ∈ effects := by
  induction stages generalizing state effects with
  | nil => simp [fired] at fires
  | cons stage rest ih =>
      rcases runStages_cons_eq_some_iff.mp run with ⟨middle, first, others, head, tail, rfl⟩
      rcases mem_fired_cons fires with ⟨here, listens⟩ | ⟨middle', _, head', later⟩
      · cases here
        rcases stage.run_cases head with ⟨silent, _⟩ | ⟨heard, listens', performs⟩
        · rw [listens] at silent
          contradiction
        · rw [listens] at listens'
          cases listens'
          exact ⟨middle, first, performs, fun _ => List.mem_append_left _⟩
      · rw [head] at head'
        cases head'
        obtain ⟨next, emitted, performs, sub⟩ := ih tail later
        exact ⟨next, emitted, performs,
          fun effect effectMem => List.mem_append_right _ (sub effect effectMem)⟩

/-- `first` raises only cues that come before those of `second`. -/
def Stage.Before (order : κ → Nat) (first second : Stage σ κ) : Prop :=
  ∀ s cue s' cue', first.listen s = some cue → second.listen s' = some cue' →
    order cue < order cue'

/-- Stages that raise cues of increasing rank come in the order of their cues. -/
theorem pairwise_before {order : κ → Nat} (ranks : List Nat)
    (ranked : List.Forall₂ (fun stage rank => ∀ s cue, stage.listen s = some cue →
      order cue = rank) stages ranks)
    (increasing : ranks.Pairwise (· < ·)) : stages.Pairwise (Stage.Before order) := by
  obtain ⟨sameLength, raises⟩ := List.forall₂_iff_get.mp ranked
  rw [List.pairwise_iff_getElem] at increasing ⊢
  intro i j first second below s cue s' cue' listens listens'
  have lower := raises i first (sameLength ▸ first) s cue listens
  have upper := raises j second (sameLength ▸ second) s' cue' listens'
  rw [lower, upper]
  exact increasing i j _ _ below

/-- What a fired cue leaves behind holds at the end of a pass of allowed cues, if
recording and the allowed cues that come after it preserve it. -/
theorem holds_after_allowed {order : κ → Nat} {P : σ → Prop} {s : σ} {cue : κ}
    (allowed : σ → κ → Prop) (ordered : stages.Pairwise (Stage.Before order))
    (run : runStages perform stages state = some (final, effects))
    (fires : (s, cue) ∈ fired perform stages state)
    (leaves : ∀ next emitted, perform s cue = some (next, emitted) → P next)
    (others : ∀ firing ∈ fired perform stages state, allowed firing.1 firing.2)
    (preserves : Preserves perform stages (fun s later => allowed s later ∧
      order cue < order later) P) :
    P final := by
  induction stages generalizing state effects with
  | nil => simp [fired] at fires
  | cons stage rest ih =>
      rcases runStages_cons_eq_some_iff.mp run with ⟨middle, first, rests, head, tail, _⟩
      obtain ⟨before, restOrdered⟩ := List.pairwise_cons.mp ordered
      have restAllowed : ∀ firing ∈ fired perform rest middle, allowed firing.1 firing.2 := by
        intro firing firingMem
        apply others
        simp only [fired, head]
        exact List.mem_append_right _ firingMem
      have restPreserves := preserves.mono (List.subset_cons_self stage rest)
      rcases mem_fired_cons fires with ⟨here, listens⟩ | ⟨middle', _, head', later⟩
      · cases here
        rcases stage.run_cases head with ⟨silent, _⟩ | ⟨heard, listens', performs⟩
        · rw [listens] at silent
          contradiction
        · rw [listens] at listens'
          cases listens'
          have left : P middle := leaves middle first performs
          refine (restPreserves.of_runStages left ?_ tail).1
          intro firing firingMem
          rcases exists_stage_of_mem_fired firingMem with ⟨later, laterMem, laterListens⟩
          exact ⟨restAllowed firing firingMem, before later laterMem _ _ _ _ listens laterListens⟩
      · rw [head] at head'
        cases head'
        exact ih restOrdered tail later restAllowed restPreserves

/-- What a fired cue leaves behind holds at the end of the pass, if recording and
the cues that come after it preserve it. -/
theorem holds_after_fired {order : κ → Nat} {P : σ → Prop} {s : σ} {cue : κ}
    (ordered : stages.Pairwise (Stage.Before order))
    (run : runStages perform stages state = some (final, effects))
    (fires : (s, cue) ∈ fired perform stages state)
    (leaves : ∀ next emitted, perform s cue = some (next, emitted) → P next)
    (preserves : Preserves perform stages (fun _ later => order cue < order later) P) :
    P final := by
  apply holds_after_allowed (fun _ _ => True) ordered run fires leaves (fun _ _ => trivial)
  exact
    { store := preserves.store
      cue := fun stage stageMem s later next emitted holds isLater =>
        preserves.cue stage stageMem s later next emitted holds isLater.2 }

theorem runStages_cons_eq_none_iff {stage : Stage σ κ} {rest : List (Stage σ κ)} {middle : σ}
    {first : List ε} (head : stage.run perform state = some (middle, first)) :
    runStages perform (stage :: rest) state = none ↔ runStages perform rest middle = none := by
  cases tail : runStages perform rest middle <;> simp [runStages, head, tail]

/-- A pass fails when one of its cues does. -/
theorem runStages_eq_none_iff :
    runStages perform stages state = none ↔
      ∃ firing ∈ fired perform stages state, perform firing.1 firing.2 = none := by
  induction stages generalizing state with
  | nil => simp [runStages, fired]
  | cons stage rest ih =>
      cases listens : stage.listen (stage.store state) with
      | none =>
          have head : stage.run perform state = some (stage.store state, []) := by
            simp [Stage.run, listens]
          rw [runStages_cons_eq_none_iff head, ih]
          simp [fired, head, listens]
      | some cue =>
          cases performs : perform (stage.store state) cue with
          | none =>
              have head : stage.run perform state = none := by
                simp [Stage.run, listens, performs]
              simp [runStages, fired, head, listens, performs]
          | some outcome =>
              have head : stage.run perform state = some (outcome.1, outcome.2) := by
                simp [Stage.run, listens, performs]
              rw [runStages_cons_eq_none_iff head, ih]
              simp [fired, head, listens, performs]

/-- What every stage of a pass keeps, the pass keeps. -/
theorem holds_of_kept {blocks : List (Stage σ κ × (σ → Prop))} {P : σ → Prop}
    (keeps : ∀ block ∈ blocks, ∀ s next emitted, P s →
      block.1.run perform s = some (next, emitted) → P next)
    (holds : P state)
    (run : runStages perform (blocks.map Prod.fst) state = some (final, effects)) : P final := by
  induction blocks generalizing state effects with
  | nil =>
      cases run
      exact holds
  | cons block rest ih =>
      rcases runStages_cons_eq_some_iff.mp run with ⟨middle, first, others, head, tail, _⟩
      exact ih (fun later laterMem => keeps later (List.mem_cons_of_mem _ laterMem))
        (keeps block List.mem_cons_self _ _ _ holds head) tail

/-- One pass settles every stage, if each stage settles when it runs and no later
stage unsettles it. -/
theorem settled_of_runStages {blocks : List (Stage σ κ × (σ → Prop))}
    (settles : ∀ block ∈ blocks, ∀ s next emitted,
      block.1.run perform s = some (next, emitted) → block.2 next)
    (keeps : blocks.Pairwise fun earlier later => ∀ s next emitted, earlier.2 s →
      later.1.run perform s = some (next, emitted) → earlier.2 next)
    (run : runStages perform (blocks.map Prod.fst) state = some (final, effects)) :
    ∀ block ∈ blocks, block.2 final := by
  induction blocks generalizing state effects with
  | nil => simp
  | cons block rest ih =>
      obtain ⟨laterKeep, restKeep⟩ := List.pairwise_cons.mp keeps
      rcases runStages_cons_eq_some_iff.mp run with ⟨middle, first, others, head, tail, _⟩
      have restSettled := ih (fun later laterMem => settles later (List.mem_cons_of_mem _ laterMem))
        restKeep tail
      have settled := settles block List.mem_cons_self _ _ _ head
      intro any anyMem
      rcases List.mem_cons.mp anyMem with rfl | inRest
      · exact holds_of_kept laterKeep settled tail
      · exact restSettled any inRest

end Raspen.Transition
