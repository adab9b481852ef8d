import Mathlib.Data.Finset.Card

/-!
# Quorums under Byzantine faults

A vote counts when a correct member casts it; a Byzantine member may back any
value.  When two quorums always share a correct member and every correct member
votes for one value in each slot, a slot has at most one certified value.
-/

namespace Raspen.Quorum

universe u v w

/-- However the members not heard from vote, the backers fall short of a quorum exactly
when they do so with all of them. -/
theorem out_of_reach_iff {ν : Type u} [DecidableEq ν] {members heard backers : Finset ν}
    {quorum : Nat} (heardSub : heard ⊆ members) (backersSub : backers ⊆ heard) :
    (∀ late ⊆ members \ heard, (backers ∪ late).card < quorum) ↔
      backers.card + (members.card - heard.card) < quorum := by
  have silent_card : (members \ heard).card = members.card - heard.card :=
    Finset.card_sdiff_of_subset heardSub
  rw [← silent_card]
  constructor
  · intro short
    have apart : Disjoint backers (members \ heard) :=
      Finset.disjoint_of_subset_left backersSub Finset.disjoint_sdiff
    rw [← Finset.card_union_of_disjoint apart]
    exact short _ (Finset.Subset.refl _)
  · intro short late lateSub
    calc (backers ∪ late).card
        ≤ backers.card + late.card := Finset.card_union_le _ _
      _ ≤ backers.card + (members \ heard).card :=
        Nat.add_le_add_left (Finset.card_le_card lateSub) _
      _ < quorum := short

/-- Members, the Byzantine ones among them, and a quorum size whose quorums
intersect outside the faults. -/
structure FaultModel (ν : Type u) [DecidableEq ν] where
  members : Finset ν
  byzantine : Finset ν
  faultBound : Nat
  quorum : Nat
  byzantine_subset : byzantine ⊆ members
  byzantine_le : byzantine.card ≤ faultBound
  intersects : members.card + faultBound < 2 * quorum

namespace FaultModel

variable {ν : Type u} [DecidableEq ν] (model : FaultModel ν)

/-- The members that follow the protocol. -/
def correct : Finset ν :=
  model.members \ model.byzantine

variable {model}

theorem mem_correct_iff {node : ν} :
    node ∈ model.correct ↔ node ∈ model.members ∧ node ∉ model.byzantine :=
  Finset.mem_sdiff

/-- More members than faults include a correct one. -/
theorem exists_correct_mem {voters : Finset ν} (sub : voters ⊆ model.members)
    (many : model.faultBound < voters.card) : ∃ node ∈ model.correct, node ∈ voters := by
  rcases Finset.exists_mem_notMem_of_card_lt_card (model.byzantine_le.trans_lt many) with
    ⟨node, voted, notByzantine⟩
  exact ⟨node, mem_correct_iff.mpr ⟨sub voted, notByzantine⟩, voted⟩

/-- Two quorums share a correct member. -/
theorem exists_correct_mem_both {first second : Finset ν} (firstSub : first ⊆ model.members)
    (secondSub : second ⊆ model.members) (firstQuorum : model.quorum ≤ first.card)
    (secondQuorum : model.quorum ≤ second.card) :
    ∃ node ∈ model.correct, node ∈ first ∧ node ∈ second := by
  have correctCard : model.correct.card + model.byzantine.card = model.members.card :=
    Finset.card_sdiff_add_card_eq_card model.byzantine_subset
  have firstCorrect : first.card ≤ (first \ model.byzantine).card + model.byzantine.card :=
    Finset.card_le_card_sdiff_add_card
  have secondCorrect : second.card ≤ (second \ model.byzantine).card + model.byzantine.card :=
    Finset.card_le_card_sdiff_add_card
  have crowded : model.correct.card <
      (first \ model.byzantine).card + (second \ model.byzantine).card := by
    have := model.byzantine_le
    have := model.intersects
    omega
  obtain ⟨node, shared⟩ := Finset.inter_nonempty_of_card_lt_card_add_card
    (Finset.sdiff_subset_sdiff firstSub (Finset.Subset.refl _))
    (Finset.sdiff_subset_sdiff secondSub (Finset.Subset.refl _)) crowded
  simp only [Finset.mem_inter, Finset.mem_sdiff] at shared
  rcases shared with ⟨⟨inFirst, notByzantine⟩, inSecond, _⟩
  exact ⟨node, mem_correct_iff.mpr ⟨firstSub inFirst, notByzantine⟩, inFirst, inSecond⟩

variable {κ : Type v} {α : Type w} {votes : ν → κ → α → Prop}

variable (model votes) in
/-- A quorum of members backs `value` in `slot`: its correct members voted so. -/
def Certified (slot : κ) (value : α) : Prop :=
  ∃ voters ⊆ model.members, model.quorum ≤ voters.card ∧
    ∀ node ∈ voters, node ∈ model.correct → votes node slot value

/-- Some correct member stands behind every certified value. -/
theorem Certified.exists_correct {slot : κ} {value : α}
    (certified : model.Certified votes slot value) :
    ∃ node ∈ model.correct, votes node slot value := by
  rcases certified with ⟨voters, sub, quorum, voted⟩
  have many : model.faultBound < voters.card := by
    have := Finset.card_le_card sub
    have := model.intersects
    omega
  rcases exists_correct_mem sub many with ⟨node, correct, nodeMem⟩
  exact ⟨node, correct, voted node nodeMem correct⟩

/-- What certifies one value certifies whatever its votes imply. -/
theorem Certified.imp {κ' : Type v} {α' : Type w} {votes' : ν → κ' → α' → Prop} {slot : κ}
    {value : α} {slot' : κ'} {value' : α'} (certified : model.Certified votes slot value)
    (implies : ∀ node, votes node slot value → votes' node slot' value') :
    model.Certified votes' slot' value' := by
  rcases certified with ⟨voters, sub, quorum, voted⟩
  exact ⟨voters, sub, quorum, fun node nodeMem correct =>
    implies node (voted node nodeMem correct)⟩

/-- Correct members that keep out of a slot can leave too few for a quorum. -/
theorem not_certified_of_absent {absent : Finset ν} {slot : κ} {value : α}
    (sub : absent ⊆ model.correct) (silent : ∀ node ∈ absent, ¬votes node slot value)
    (many : model.members.card < model.quorum + absent.card) :
    ¬model.Certified votes slot value := by
  rintro ⟨voters, votersSub, quorum, voted⟩
  have apart : Disjoint voters absent := by
    rw [Finset.disjoint_left]
    intro node nodeVotes nodeAbsent
    exact silent node nodeAbsent (voted node nodeVotes (sub nodeAbsent))
  have within : voters ∪ absent ⊆ model.members :=
    Finset.union_subset votersSub (sub.trans Finset.sdiff_subset)
  have fits := Finset.card_le_card within
  rw [Finset.card_union_of_disjoint apart] at fits
  omega

/-- Correct members that vote once in each slot certify one value in it. -/
theorem certified_unique
    (once : ∀ node ∈ model.correct, ∀ slot value value',
      votes node slot value → votes node slot value' → value = value')
    {slot : κ} {value value' : α} (first : model.Certified votes slot value)
    (second : model.Certified votes slot value') : value = value' := by
  rcases first with ⟨voters, sub, quorum, voted⟩
  rcases second with ⟨voters', sub', quorum', voted'⟩
  rcases exists_correct_mem_both sub sub' quorum quorum' with ⟨node, correct, inFirst, inSecond⟩
  exact once node correct slot value value' (voted node inFirst correct)
    (voted' node inSecond correct)

end FaultModel

end Raspen.Quorum
