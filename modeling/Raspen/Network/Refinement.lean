import Raspen.Network.Repair
import Raspen.Quorum.Decision
import Raspen.Transition.Refinement

/-!
# REPAIR decides each round once

Seen from outside, a cluster in REPAIR fills a register of decisions: applying a
history in a round adopts it for the round.  Votes, views, retries and replicas
that only catch up are invisible there.
-/

namespace Raspen

open Raspen.Transition Raspen.Quorum Raspen.Network

variable {S : Type} [KvStoreOps S]

/-- Some replica has applied `historyHash` in `round`. -/
def AppliedIn (network : Network S) (round historyHash : UInt64) : Prop :=
  ∃ node, ∃ call ∈ (network node).calls, call.AppliesIn round historyHash

/-- The decided histories are those that some replica has applied. -/
def Records (network : Network S) (decisions : Decisions UInt64 UInt64) : Prop :=
  ∀ round historyHash,
    decisions round = some historyHash ↔ AppliedIn network round historyHash

/-- One call applies at most one history. -/
theorem appliesIn_unique {call : Call S}
    (steps : step call.pre call.input = some (call.post, call.effects))
    {round round' historyHash historyHash' : UInt64} (applies : call.AppliesIn round historyHash)
    (applies' : call.AppliesIn round' historyHash') :
    round = round' ∧ historyHash = historyHash' := by
  obtain ⟨replica, rfl, applied⟩ := applied_of_appliesIn steps applies
  obtain ⟨replica', rfl, applied'⟩ := applied_of_appliesIn steps applies'
  constructor
  · have next_eq := toNat_of_addU64 applied.round
    rw [toNat_of_addU64 applied'.round] at next_eq
    exact UInt64.toNat_inj.mp (Nat.add_right_cancel next_eq).symm
  · exact applied.kvSize.symm.trans applied'.kvSize

variable {cluster : Cluster} {stores : NodeId → S} {network later : Network S}

/-- A step of the cluster adds the applications of one call. -/
theorem appliedIn_next_iff {action : NodeId × Input}
    (steps : Network.next cluster network action = some later) :
    ∃ call ∈ (later action.1).calls, ∀ round historyHash,
      AppliedIn later round historyHash ↔
        AppliedIn network round historyHash ∨ call.AppliesIn round historyHash := by
  rcases next_eq_some_iff.mp steps with ⟨_, _, history, served, rfl⟩
  rcases History.next_eq_some_iff.mp served with ⟨post, effects, _, rfl⟩
  have served_calls : (Function.update network action.1 ⟨post, (network action.1).calls ++
      [⟨action.2, (network action.1).replica, post, effects⟩]⟩ action.1).calls =
      (network action.1).calls ++ [⟨action.2, (network action.1).replica, post, effects⟩] := by
    rw [Function.update_self]
  refine ⟨⟨action.2, (network action.1).replica, post, effects⟩, ?_, ?_⟩
  · rw [served_calls]
    exact List.mem_append_right _ List.mem_cons_self
  · intro round historyHash
    constructor
    · rintro ⟨node, call, callMem, applies⟩
      by_cases same : node = action.1
      · subst same
        rw [served_calls] at callMem
        rcases List.mem_append.mp callMem with old | new
        · exact .inl ⟨action.1, call, old, applies⟩
        · rw [List.mem_singleton.mp new] at applies
          exact .inr applies
      · rw [Function.update_of_ne same] at callMem
        exact .inl ⟨node, call, callMem, applies⟩
    · rintro (⟨node, call, callMem, applies⟩ | applies)
      · by_cases same : node = action.1
        · subst same
          refine ⟨action.1, call, ?_, applies⟩
          rw [served_calls]
          exact List.mem_append_left _ callMem
        · refine ⟨node, call, ?_, applies⟩
          rw [Function.update_of_ne same]
          exact callMem
      · refine ⟨action.1, _, ?_, applies⟩
        rw [served_calls]
        exact List.mem_append_right _ List.mem_cons_self

/-- All applications of one round are of one history. -/
theorem appliedIn_unique (run : Run cluster stores network)
    {round historyHash historyHash' : UInt64} (first : AppliedIn network round historyHash)
    (second : AppliedIn network round historyHash') : historyHash = historyHash' := by
  rcases first with ⟨node, call, callMem, applies⟩
  rcases second with ⟨node', call', callMem', applies'⟩
  rcases applied_of_appliesIn ((run.localRun node).step_of_mem_calls callMem) applies with
    ⟨replica, sameRound, applied⟩
  rcases applied_of_appliesIn ((run.localRun node').step_of_mem_calls callMem') applies' with
    ⟨replica', sameRound', applied'⟩
  exact applied_unique run callMem callMem' applied applied' (sameRound.trans sameRound'.symm)

/-- The cluster refines the register: a step that applies a history adopts it,
and every other step leaves the register alone. -/
theorem repair_simulation (cluster : Cluster) (stores : NodeId → S) :
    Simulation (Network.next cluster) (Network.start cluster stores) Decisions.adopt
      Decisions.none Records where
  starts := by
    intro round historyHash
    constructor
    · intro decided
      contradiction
    · rintro ⟨node, call, callMem, _⟩
      simp [Network.start, History.start] at callMem
  step := by
    intro network later decisions action reached records steps
    rcases appliedIn_next_iff steps with ⟨call, callMem, appliedIn_iff⟩
    have run : Run cluster stores later := reached.tail steps
    by_cases applies : ∃ round historyHash, call.AppliesIn round historyHash
    · rcases applies with ⟨round, historyHash, applies⟩
      have applied : AppliedIn later round historyHash := (appliedIn_iff _ _).mpr (.inr applies)
      have agrees : ∀ decided, decisions round = some decided → decided = historyHash := by
        intro decided isDecided
        have appliedBefore := (records round decided).mp isDecided
        exact appliedIn_unique run ((appliedIn_iff _ _).mpr (.inl appliedBefore)) applied
      have adopts : decisions.adopt (round, historyHash) =
          some (Function.update decisions round (some historyHash)) :=
        Decisions.adopt_eq_some_iff.mpr ⟨agrees, rfl⟩
      refine ⟨_, Reachable.refl.tail adopts, ?_⟩
      intro round' historyHash'
      by_cases same : round' = round
      · subst same
        rw [Function.update_self, Option.some.injEq]
        constructor
        · rintro rfl
          exact applied
        · exact appliedIn_unique run applied
      · rw [Function.update_of_ne same, records, appliedIn_iff]
        constructor
        · exact .inl
        · rintro (old | new)
          · exact old
          · have steps := (run.localRun action.1).step_of_mem_calls callMem
            exact absurd (appliesIn_unique steps new applies).1 same
    · refine ⟨decisions, .refl, ?_⟩
      intro round historyHash
      rw [records, appliedIn_iff]
      constructor
      · exact .inl
      · rintro (old | new)
        · exact old
        · exact absurd ⟨round, historyHash, new⟩ applies

/-- The decisions of a run are those of some run of the register, and they are
final: whatever is applied for a decided round later on is what was decided. -/
theorem decisions_of_run (run : Run cluster stores network) :
    ∃ decisions, Reachable Decisions.adopt Decisions.none decisions ∧ Records network decisions ∧
      ∀ later, Reachable (Network.next cluster) network later → ∀ round historyHash,
        decisions round = some historyHash →
        ∀ historyHash', AppliedIn later round historyHash' → historyHash' = historyHash := by
  have simulation := repair_simulation cluster stores
  rcases simulation.exists_reachable .refl simulation.starts run with ⟨decisions, adopted, records⟩
  refine ⟨decisions, adopted, records, ?_⟩
  intro later continues round historyHash decided historyHash' applied
  rcases simulation.exists_reachable run records continues with ⟨final, adoptedLater, recordsLater⟩
  have kept := Decisions.decided_of_reachable adoptedLater decided
  have isApplied := (recordsLater round historyHash').mpr applied
  rw [kept, Option.some.injEq] at isApplied
  exact isApplied.symm

end Raspen
