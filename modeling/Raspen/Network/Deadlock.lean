import Raspen.Network.Repair

/-!
# Rounds that cannot be repaired

A replica that has voted stays in the view of its vote until the round is over, and one that
collects LOGs never returns to an earlier view.  When more than `f` correct replicas have
voted in a view and more than `f` others have left it, no view is left in which a quorum
could commit.
-/

namespace Raspen

open Raspen.Transition Raspen.Quorum

variable {S : Type}

/-- The replica will not commit in `view` of `round`, in which it is: it has passed the view
or has voted in another one. -/
def Replica.Misses (replica : Replica S) (round view : UInt64) : Prop :=
  replica.round = round ∧
    (replica.phase = .collectingLogs ∧ view.toNat < replica.view.toNat ∨
      (replica.phase = .preparePhase ∨ replica.phase = .commitPhase) ∧ view ≠ replica.view)

instance (replica : Replica S) (round view : UInt64) : Decidable (replica.Misses round view) :=
  inferInstanceAs (Decidable (_ ∧ _))

/-- It has not done so, and will not: it misses the view, or its round is over. -/
structure Missed (round view : UInt64) (replica : Replica S) (trace : List Effect) : Prop where
  unsent : ∀ effect ∈ trace, ∀ sender hist, effect.message ≠ .repairCommit sender view round hist
  gone : round.toNat < replica.round.toNat ∨ replica.Misses round view

/-- Inside a round, a missed view stays missed. -/
theorem misses_of_advances {replica next : Replica S} {round view : UInt64}
    (advances : Advances replica next) (misses : replica.Misses round view) :
    next.Misses round view := by
  obtain ⟨rfl, ⟨collecting, passed⟩ | ⟨voted, elsewhere⟩⟩ := misses
  · obtain ⟨inside, viewLe, _⟩ := advances.repair (by simp [collecting, Phase.isRepair])
    have stillPassed := passed.trans_le viewLe
    have elsewhere : view ≠ next.view := by
      rintro rfl
      exact absurd stillPassed (Nat.lt_irrefl _)
    cases phase : next.phase with
    | speculative => simp [phase, Phase.isRepair] at inside
    | aligning => simp [phase, Phase.isRepair] at inside
    | collectingLogs => exact ⟨advances.round, .inl ⟨phase, stillPassed⟩⟩
    | preparePhase => exact ⟨advances.round, .inr ⟨.inl phase, elsewhere⟩⟩
    | commitPhase => exact ⟨advances.round, .inr ⟨.inr phase, elsewhere⟩⟩
  · obtain ⟨stillVoted, viewEq⟩ := advances.proposal voted
    rw [← viewEq] at elsewhere
    exact ⟨advances.round, .inr ⟨stillVoted, elsewhere⟩⟩

variable [KvStoreOps S]

/-- A commit vote is sent in PreparePhase, for the current view and round. -/
theorem slot_of_commit {replica next : Replica S} {effects : List Effect} {effect : Effect}
    {sender : NodeId} {view round hist : UInt64} (move : RepairMove replica next effects)
    (effectMem : effect ∈ effects)
    (isCommit : effect.message = .repairCommit sender view round hist) :
    replica.phase = .preparePhase ∧ view = replica.view ∧ round = replica.round ∧
      next.phase = .commitPhase ∧ next.view = replica.view ∧ next.round = replica.round := by
  cases move with
  | quiet _ quiet =>
      have loud := quiet effect effectMem
      rw [isCommit] at loud
      contradiction
  | enter _ quiet =>
      rcases List.mem_append.mp effectMem with proofMem | logMem
      · have loud := quiet effect proofMem
        rw [isCommit] at loud
        contradiction
      · rw [List.mem_singleton.mp logMem] at isCommit
        contradiction
  | lock guard =>
      rw [List.mem_singleton.mp effectMem] at isCommit
      cases isCommit
      exact ⟨(canRepairCommit_eq_some_iff.mp guard).1, rfl, rfl, rfl, rfl, rfl⟩
  | propose _ | vote _ _ | changeView _ _ =>
      rw [List.mem_singleton.mp effectMem] at isCommit
      contradiction
  | apply _ _ _ =>
      rcases List.mem_cons.mp effectMem with rfl | replyMem
      · contradiction
      · rw [List.mem_singleton.mp replyMem] at isCommit
        contradiction
  | catchup _ _ => simp at effectMem

/-- A missed view stays missed. -/
theorem Missed.of_repairMove {replica next : Replica S} {trace effects : List Effect}
    {round view : UInt64} (consistent : PhaseConsistent replica)
    (missed : Missed round view replica trace) (move : RepairMove replica next effects) :
    Missed round view next (trace ++ effects) where
  unsent := by
    intro effect effectMem sender hist isCommit
    rcases List.mem_append.mp effectMem with old | new
    · exact missed.unsent effect old sender hist isCommit
    · obtain ⟨preparing, rfl, rfl, _⟩ := slot_of_commit move new isCommit
      rcases missed.gone with ended | ⟨_, ⟨collecting, _⟩ | ⟨_, elsewhere⟩⟩
      · exact absurd ended (Nat.lt_irrefl _)
      · rw [preparing] at collecting
        contradiction
      · exact elsewhere rfl
  gone := by
    rcases progress_of_repairMove consistent move with finished | advances
    · rcases missed.gone with ended | ⟨rfl, _⟩
      · exact .inl (ended.trans finished)
      · exact .inl finished
    · rcases missed.gone with ended | misses
      · rw [← advances.round] at ended
        exact .inl ended
      · exact .inr (misses_of_advances advances misses)

/-- Where the commit votes of a replica leave it: its round is ended, or it is in CommitPhase
of that very view. -/
def CommitsHere (replica : Replica S) (trace : List Effect) : Prop :=
  ∀ effect ∈ trace, ∀ sender view round hist,
    effect.message = .repairCommit sender view round hist →
      round.toNat < replica.round.toNat ∨
        (round = replica.round ∧ replica.phase = .commitPhase ∧ view = replica.view)

theorem CommitsHere.of_repairMove {replica next : Replica S} {trace effects : List Effect}
    (consistent : PhaseConsistent replica) (commits : CommitsHere replica trace)
    (move : RepairMove replica next effects) : CommitsHere next (trace ++ effects) := by
  intro effect effectMem sender view round hist isCommit
  rcases List.mem_append.mp effectMem with old | new
  · rcases commits effect old sender view round hist isCommit with ended | ⟨rfl, committing, rfl⟩
    · rcases progress_of_repairMove consistent move with finished | advances
      · exact .inl (ended.trans finished)
      · rw [← advances.round] at ended
        exact .inl ended
    · rcases progress_of_repairMove consistent move with finished | advances
      · exact .inl finished
      · exact .inr ⟨advances.round.symm, advances.commit committing,
          (advances.proposal (.inr committing)).2.symm⟩
  · obtain ⟨_, rfl, rfl, committing, viewEq, roundEq⟩ := slot_of_commit move new isCommit
    exact .inr ⟨roundEq.symm, committing, viewEq.symm⟩

/-- Why a replica has left `round`: it has applied a history, or holds enough REPAIR-DONEs. -/
def Leaves (round : UInt64) (replica : Replica S) (trace : List Effect) : Prop :=
  round.toNat < replica.round.toNat →
    (∃ effect ∈ trace, ∃ sender view hist, effect.message = .repairDone sender view round hist) ∨
      ∃ view, replica.config.fPlus1 ≤
        (replica.repairDoneMsgs.filter (·.isRepairDoneAt view round)).card

theorem Leaves.of_repairMove {replica next : Replica S} {trace effects : List Effect}
    {round : UInt64} (leaves : Leaves round replica trace)
    (move : RepairMove replica next effects) : Leaves round next (trace ++ effects) := by
  intro left
  have before : round.toNat < replica.round.toNat → next.config = replica.config →
      replica.repairDoneMsgs ⊆ next.repairDoneMsgs →
      (∃ effect ∈ trace ++ effects, ∃ sender view hist,
          effect.message = .repairDone sender view round hist) ∨
        ∃ view, next.config.fPlus1 ≤
          (next.repairDoneMsgs.filter (·.isRepairDoneAt view round)).card := by
    intro leftBefore config_eq sub
    rcases leaves leftBefore with ⟨effect, effectMem, isDone⟩ | ⟨view, many⟩
    · exact .inl ⟨effect, List.mem_append_left _ effectMem, isDone⟩
    · rw [config_eq]
      exact .inr ⟨view, many.trans (Finset.card_le_card (Finset.filter_subset_filter _ sub))⟩
  -- a round that ends now is the current one
  have now : ∀ {advanced : UInt64}, addU64 replica.round 1 = some advanced →
      round.toNat < advanced.toNat →
      round.toNat < replica.round.toNat ∨ round = replica.round := by
    intro advanced sum after
    rw [toNat_of_addU64 sum] at after
    rcases Nat.lt_or_eq_of_le (Nat.le_of_lt_succ after) with less | same
    · exact .inl less
    · exact .inr (UInt64.toNat_inj.mp same)
  cases move with
  | quiet quiet _ =>
      rw [quiet.round] at left
      exact before left quiet.config quiet.repairDoneMsgs
  | enter _ _ | propose _ | vote _ _ | lock _ | changeView _ _ =>
      exact before left rfl (Finset.Subset.refl _)
  | apply _ advanced _ =>
      rcases now advanced left with less | rfl
      · exact before less rfl (Finset.Subset.refl _)
      · exact .inl ⟨_, List.mem_append_right _ List.mem_cons_self, _, _, _, rfl⟩
  | catchup guard advanced =>
      rcases now advanced left with less | rfl
      · exact before less rfl (Finset.Subset.refl _)
      · exact .inr ⟨replica.view, (canRepairDoneCatchup_eq_some_iff.mp guard).2.1⟩

/-! ## Runs of one replica -/

section Runs

variable {config : Config} {nodeId : NodeId} {kvStore : S} {history later : History S}
  {round view : UInt64}

/-- A replica that misses a view has not committed in it before. -/
theorem missed_of_misses (run : LocalRun config nodeId kvStore history)
    (misses : history.replica.Misses round view) :
    Missed round view history.replica history.effects where
  unsent := by
    have commits : PhaseConsistent history.replica ∧
        CommitsHere history.replica history.effects := by
      apply run.repair_invariant (P := fun replica trace =>
        PhaseConsistent replica ∧ CommitsHere replica trace)
      · exact ⟨phaseConsistent_new config nodeId kvStore, by simp [CommitsHere]⟩
      · intro replica next trace effects holds move
        exact ⟨holds.1.of_repairMove move, holds.2.of_repairMove holds.1 move⟩
    intro effect effectMem sender hist isCommit
    obtain ⟨rfl, ⟨collecting, _⟩ | ⟨_, elsewhere⟩⟩ := misses
    · rcases commits.2 effect effectMem _ _ _ _ isCommit with ended | ⟨_, committing, _⟩
      · exact absurd ended (Nat.lt_irrefl _)
      · rw [collecting] at committing
        contradiction
    · rcases commits.2 effect effectMem _ _ _ _ isCommit with ended | ⟨_, _, here⟩
      · exact absurd ended (Nat.lt_irrefl _)
      · exact elsewhere here
  gone := .inr misses

/-- What every REPAIR move preserves, whatever is served later preserves. -/
theorem repair_onwards {P : Replica S → List Effect → Prop}
    (onwards : Reachable History.next history later) (holds : P history.replica history.effects)
    (move : ∀ {replica next : Replica S} {trace effects : List Effect},
      P replica trace → RepairMove replica next effects → P next (trace ++ effects)) :
    P later.replica later.effects := by
  apply onwards.invariant (P := fun history => P history.replica history.effects) holds
  intro earlier next input _ before served
  rcases History.next_eq_some_iff.mp served with ⟨post, effects, steps, rfl⟩
  have kept := (moves_of_step steps).preserves (P := P)
    (fun holds step => move holds (.of_move step)) before
  simpa [History.effects] using kept

/-- Whatever the replica serves later, it does not commit in a view that it misses. -/
theorem missed_of_reachable (run : LocalRun config nodeId kvStore history)
    (misses : history.replica.Misses round view)
    (onwards : Reachable History.next history later) :
    Missed round view later.replica later.effects := by
  have kept := repair_onwards (P := fun replica trace =>
    PhaseConsistent replica ∧ Missed round view replica trace) onwards
    ⟨(emitted_of_localRun run).consistent, missed_of_misses run misses⟩
    fun holds move => ⟨holds.1.of_repairMove move, holds.2.of_repairMove holds.1 move⟩
  exact kept.2

/-- Rounds only grow. -/
theorem round_le_of_reachable (run : LocalRun config nodeId kvStore history)
    (onwards : Reachable History.next history later) :
    history.replica.round.toNat ≤ later.replica.round.toNat := by
  have kept := repair_onwards (P := fun replica _ =>
    PhaseConsistent replica ∧ history.replica.round.toNat ≤ replica.round.toNat) onwards
    ⟨(emitted_of_localRun run).consistent, Nat.le_refl _⟩ ?_
  · exact kept.2
  · intro replica next trace effects holds move
    constructor
    · exact holds.1.of_repairMove move
    · rcases progress_of_repairMove holds.1 move with finished | advances
      · exact holds.2.trans (Nat.le_of_lt finished)
      · rw [advances.round]
        exact holds.2

theorem leaves_of_localRun (run : LocalRun config nodeId kvStore history) :
    Leaves round history.replica history.effects := by
  apply run.repair_invariant (P := Leaves round)
  · intro left
    exact absurd left (Nat.not_lt_zero _)
  · exact Leaves.of_repairMove

end Runs

/-! ## Runs of a cluster -/

namespace Network

variable {cluster : Cluster} {stores : NodeId → S} {network later : Network S}

/-- Each replica goes on from where it was. -/
theorem reachable_local (onwards : Reachable (next cluster) network later) (node : NodeId) :
    Reachable History.next (network node) (later node) := by
  apply onwards.invariant (P := fun later => Reachable History.next (network node) (later node))
  · exact .refl
  · intro earlier final action _ holds steps
    rcases next_eq_some_iff.mp steps with ⟨_, _, history, served, rfl⟩
    by_cases same : node = action.1
    · subst same
      rw [Function.update_self]
      exact holds.tail served
    · rw [Function.update_of_ne same]
      exact holds

/-- When more than `f` correct replicas miss each view, no history of the round is ever
certified. -/
theorem not_certified_of_split (run : Run cluster stores network)
    (onwards : Reachable (next cluster) network later) {round : UInt64}
    (split : ∀ view, cluster.config.f <
      (cluster.correct.filter fun node => (network node).replica.Misses round view).card)
    (vote : UInt64 × UInt64) : ¬cluster.faultModel.Certified (Committed later) round vote := by
  have absent : (cluster.correct.filter fun node =>
      (network node).replica.Misses round vote.1) ⊆ cluster.faultModel.correct :=
    Finset.filter_subset _ _
  apply FaultModel.not_certified_of_absent absent
  · intro node nodeMem committed
    have misses := (Finset.mem_filter.mp nodeMem).2
    have missed := missed_of_reachable (run.localRun node) misses (reachable_local onwards node)
    rcases List.mem_map.mp committed with ⟨effect, effectMem, isCommit⟩
    exact missed.unsent effect effectMem _ _ isCommit
  · have members : cluster.faultModel.members.card = cluster.config.n := cluster.card_members
    have quorum : cluster.faultModel.quorum = cluster.config.n - cluster.config.f :=
      cluster.byzQuorum_eq
    have many := split vote.1
    omega

/-- Whoever has left a round in which nothing is certified holds a REPAIR-DONE that a
Byzantine replica made up. -/
theorem exists_liar_of_left (run : Run cluster stores network) {round : UInt64}
    (uncertified : ∀ vote, ¬cluster.faultModel.Certified (Committed network) round vote)
    (needsProof : 0 < cluster.config.fPlus1) {node : NodeId}
    (left : round.toNat < (network node).replica.round.toNat) :
    ∃ liar ∈ cluster.byzantine, ∃ view hist,
      .repairDone liar view round hist ∈ (network node).replica.repairDoneMsgs := by
  rcases leaves_of_localRun (run.localRun node) left with
    ⟨effect, effectMem, sender, view, hist, isDone⟩ | ⟨view, many⟩
  · have emitted : .repairDone sender view round hist ∈ (network node).messages :=
      List.mem_map.mpr ⟨effect, effectMem, isDone⟩
    exact absurd (certified_of_done run emitted) (uncertified _)
  · rw [config_of_localRun (run.localRun node)] at many
    obtain ⟨msg, msgMem⟩ := Finset.card_pos.mp (needsProof.trans_le many)
    obtain ⟨stored, isDone⟩ := Finset.mem_filter.mp msgMem
    cases msg with
    | repairDone sender doneView doneRound hist =>
        simp only [Message.isRepairDoneAt, Bool.and_eq_true, beq_iff_eq] at isDone
        obtain ⟨rfl, rfl⟩ := isDone
        have holds : (network node).replica.Stores (.repairDone sender doneView doneRound hist) :=
          ⟨_, by simp [Replica.inbox], stored⟩
        obtain ⟨member, emitted⟩ := run.authentic_of_stores node holds sender rfl
        refine ⟨sender, ?_, doneView, hist, stored⟩
        by_contra honest
        have isCorrect : sender ∈ cluster.correct := Finset.mem_sdiff.mpr ⟨member, honest⟩
        exact uncertified _ (certified_of_done run (emitted isCorrect))
    | _ => simp [Message.isRepairDoneAt] at isDone

/-- REPAIR can lock itself out.  Once more than `f` correct replicas have voted in one view of
a round and more than `f` others collect LOGs in later views, no replica ever applies a
history in that round, whatever is delivered and however often the leaders change; all
replicas of the round stay in it, unless a Byzantine REPAIR-DONE talks them out of it. -/
theorem repair_deadlock (run : Run cluster stores network)
    (onwards : Reachable (next cluster) network later) {round view : UInt64}
    {bound passed : Finset NodeId} (boundSub : bound ⊆ cluster.correct)
    (passedSub : passed ⊆ cluster.correct)
    (voted : ∀ node ∈ bound, (network node).replica.round = round ∧
      (network node).replica.view = view ∧
        ((network node).replica.phase = .preparePhase ∨
          (network node).replica.phase = .commitPhase))
    (collecting : ∀ node ∈ passed, (network node).replica.round = round ∧
      (network node).replica.phase = .collectingLogs ∧ view < (network node).replica.view)
    (manyBound : cluster.config.f < bound.card) (manyPassed : cluster.config.f < passed.card)
    (needsProof : 0 < cluster.config.fPlus1) :
    (∀ node, ∀ call ∈ (later node).calls, ∀ historyHash, ¬call.AppliesIn round historyHash) ∧
      ∀ node, (network node).replica.round = round →
        (later node).replica.round = round ∨ ∃ liar ∈ cluster.byzantine, ∃ doneView hist,
          .repairDone liar doneView round hist ∈ (later node).replica.repairDoneMsgs := by
  have split : ∀ other, cluster.config.f <
      (cluster.correct.filter fun node => (network node).replica.Misses round other).card := by
    intro other
    by_cases same : other = view
    · subst same
      apply manyPassed.trans_le (Finset.card_le_card _)
      intro node nodeMem
      obtain ⟨inRound, collects, passedBy⟩ := collecting node nodeMem
      exact Finset.mem_filter.mpr ⟨passedSub nodeMem, inRound,
        .inl ⟨collects, UInt64.lt_iff_toNat_lt.mp passedBy⟩⟩
    · apply manyBound.trans_le (Finset.card_le_card _)
      intro node nodeMem
      obtain ⟨inRound, rfl, hasVoted⟩ := voted node nodeMem
      exact Finset.mem_filter.mpr ⟨boundSub nodeMem, inRound, .inr ⟨hasVoted, same⟩⟩
  have uncertified := not_certified_of_split run onwards split
  have laterRun : Run cluster stores later := run.trans onwards
  constructor
  · intro node call callMem historyHash applies
    rcases applied_of_appliesIn ((laterRun.localRun node).step_of_mem_calls callMem) applies with
      ⟨replica, rfl, applied⟩
    exact uncertified _ (certified_of_applied laterRun callMem applied)
  · intro node inRound
    have grown := round_le_of_reachable (run.localRun node) (reachable_local onwards node)
    rw [inRound] at grown
    rcases Nat.lt_or_eq_of_le grown with left | stays
    · exact .inr (exists_liar_of_left laterRun uncertified needsProof left)
    · exact .inl (UInt64.toNat_inj.mp stays).symm

/-! ## Four correct replicas -/

section Faultless

attribute [local instance] plainHasher

/-- Four replicas, none of them Byzantine. -/
def faultlessNodes : Cluster :=
  { fourNodes with
    byzantine := ∅
    byzantine_subset := by decide
    byzantine_le := by decide }

/-- All four time out on their first entry and enter REPAIR. -/
def enteringActions : List (NodeId × Input) :=
  ["r0", "r1", "r2", "r3"].map (deliver (.speculate "sequencer" 0 Hash.zero 0)) ++
    ["r0", "r1"].map (fun node => (node, .event (.chkptTimeout 0))) ++
    ["r0", "r1"].flatMap fun sender =>
      ["r0", "r1", "r2", "r3"].map (deliver (.timeoutMsg sender 0 0))

/-- The leader proposes, its history reaches one other replica, and the last two lose
patience. -/
def partingActions : List (NodeId × Input) :=
  ["r0", "r1", "r2"].map (fun sender => deliver (.logMsg sender 0 0 Hash.zero) "r0") ++
    deliver (.repairHistory "r0" 0 0 3) "r1" ::
      ["r2", "r3"].map fun node => (node, .event .repairViewTimeout)

def partedNetwork : Network MemKvStore :=
  (execute (next faultlessNodes) (start faultlessNodes fun _ => MemKvStore.new)
    (enteringActions ++ partingActions)).get (by decide +kernel)

theorem run_partedNetwork : Run faultlessNodes (fun _ => MemKvStore.new) partedNetwork :=
  reachable_of_execute (Option.some_get _).symm

/-- Without a single fault, the four replicas have locked themselves into round 0. -/
theorem repair_deadlock_faultless :
    (∀ node ∈ faultlessNodes.correct, (partedNetwork node).replica.inRepair = true) ∧
      ∀ later, Reachable (next faultlessNodes) partedNetwork later →
        ∀ node ∈ faultlessNodes.correct, (later node).replica.round = 0 := by
  have inRound : ∀ node ∈ faultlessNodes.correct, (partedNetwork node).replica.round = 0 := by
    decide +kernel
  constructor
  · decide +kernel
  · intro later onwards node isCorrect
    have voted : ∀ node ∈ ({"r0", "r1"} : Finset NodeId),
        (partedNetwork node).replica.round = 0 ∧ (partedNetwork node).replica.view = 0 ∧
          ((partedNetwork node).replica.phase = .preparePhase ∨
            (partedNetwork node).replica.phase = .commitPhase) := by
      decide +kernel
    have collecting : ∀ node ∈ ({"r2", "r3"} : Finset NodeId),
        (partedNetwork node).replica.round = 0 ∧
          (partedNetwork node).replica.phase = .collectingLogs ∧
            0 < (partedNetwork node).replica.view := by
      decide +kernel
    have locked := (repair_deadlock run_partedNetwork onwards (by decide) (by decide) voted
      collecting (by decide) (by decide) (by decide)).2 node (inRound node isCorrect)
    rcases locked with stays | ⟨liar, isByzantine, _⟩
    · exact stays
    · simp [faultlessNodes] at isByzantine

end Faultless

end Network

end Raspen
