import Raspen.Consensus.Phases
import Raspen.Transition.Trace

/-!
# What a replica has already broadcast

`Spent` bounds the replica's progress from below by each message it has emitted:
the round and phase it must have reached.  A guard that fires again finds its
slot already spent, so every broadcast of REPAIR happens once.
-/

namespace Raspen

open KvStoreOps Raspen.Transition

variable {S : Type}

/-! ## Slots -/

/-- A LOG uses up its view and round. -/
def logSlot (effect : Effect) : Option (UInt64 × UInt64) :=
  match effect.message with
  | .logMsg _ view round _ => some (view, round)
  | _ => none

/-- A REPAIR-HISTORY uses up its round. -/
def historySlot (effect : Effect) : Option UInt64 :=
  match effect.message with
  | .repairHistory _ _ round _ => some round
  | _ => none

/-- A REPAIR-COMMIT uses up its round. -/
def commitSlot (effect : Effect) : Option UInt64 :=
  match effect.message with
  | .repairCommit _ _ round _ => some round
  | _ => none

/-- A REPAIR-DONE uses up its round. -/
def doneSlot (effect : Effect) : Option UInt64 :=
  match effect.message with
  | .repairDone _ _ round _ => some round
  | _ => none

/-- The hash a LOG reports for its round. -/
def roundLog (effect : Effect) : Option (UInt64 × Hash) :=
  match effect.message with
  | .logMsg _ _ round logHash => some (round, logHash)
  | _ => none

/-- The view in which a REPAIR-PREPARE votes in its round. -/
def roundView (effect : Effect) : Option (UInt64 × UInt64) :=
  match effect.message with
  | .repairPrepare _ view round _ => some (round, view)
  | _ => none

theorem logSlot_eq_some_iff {effect : Effect} {view round : UInt64} :
    logSlot effect = some (view, round) ↔
      ∃ sender logHash, effect.message = .logMsg sender view round logHash := by
  unfold logSlot
  cases effect.message <;> simp

theorem historySlot_eq_some_iff {effect : Effect} {round : UInt64} :
    historySlot effect = some round ↔
      ∃ sender view hist, effect.message = .repairHistory sender view round hist := by
  unfold historySlot
  cases effect.message <;> simp

theorem commitSlot_eq_some_iff {effect : Effect} {round : UInt64} :
    commitSlot effect = some round ↔
      ∃ sender view hist, effect.message = .repairCommit sender view round hist := by
  unfold commitSlot
  cases effect.message <;> simp

theorem doneSlot_eq_some_iff {effect : Effect} {round : UInt64} :
    doneSlot effect = some round ↔
      ∃ sender view hist, effect.message = .repairDone sender view round hist := by
  unfold doneSlot
  cases effect.message <;> simp

theorem roundLog_eq_some_iff {effect : Effect} {round : UInt64} {logHash : Hash} :
    roundLog effect = some (round, logHash) ↔
      ∃ sender view, effect.message = .logMsg sender view round logHash := by
  unfold roundLog
  cases effect.message <;> simp

theorem roundView_eq_some_iff {effect : Effect} {round view : UInt64} :
    roundView effect = some (round, view) ↔
      ∃ sender hist, effect.message = .repairPrepare sender view round hist := by
  unfold roundView
  cases effect.message <;> simp [and_comm]

/-- A quiet effect has no slot of REPAIR. -/
theorem slots_of_quiet {effect : Effect} (quiet : effect.message.isRepair = false) :
    logSlot effect = none ∧ historySlot effect = none ∧ commitSlot effect = none ∧
      doneSlot effect = none := by
  unfold logSlot historySlot commitSlot doneSlot
  cases message : effect.message <;> simp_all [Message.isRepair]

/-! ## Progress of one move -/

/-- Progress inside a round: REPAIR is not left, its log stays frozen, and once
there is a proposal neither the view nor the vote goes back. -/
structure Advances (replica next : Replica S) : Prop where
  round : next.round = replica.round
  repair : replica.phase.isRepair = true → next.phase.isRepair = true ∧
    replica.view.toNat ≤ next.view.toNat ∧ next.kvStore = replica.kvStore
  proposal : replica.phase = .preparePhase ∨ replica.phase = .commitPhase →
    (next.phase = .preparePhase ∨ next.phase = .commitPhase) ∧ next.view = replica.view
  commit : replica.phase = .commitPhase → next.phase = .commitPhase

/-- Outside REPAIR there is nothing to keep but the round. -/
theorem Advances.of_outside {replica next : Replica S} (round : next.round = replica.round)
    (outside : replica.phase.isRepair = false) : Advances replica next := by
  cases phase : replica.phase <;> rw [phase] at outside
  case speculative | aligning => exact ⟨round, by simp [phase, Phase.isRepair], by simp [phase],
    by simp [phase]⟩
  all_goals contradiction

theorem Advances.of_quietStep {replica next : Replica S} (quiet : QuietStep replica next) :
    Advances replica next := by
  rcases quiet.log with ⟨phaseEq, storeEq⟩ | ⟨_, outside⟩
  · constructor
    · exact quiet.round
    · intro inside
      exact ⟨phaseEq ▸ inside, by rw [quiet.view], storeEq⟩
    · intro proposal
      exact ⟨phaseEq ▸ proposal, quiet.view⟩
    · intro committing
      exact phaseEq ▸ committing
  · exact .of_outside quiet.round outside

theorem Advances.refl (replica : Replica S) : Advances replica replica where
  round := rfl
  repair inside := ⟨inside, Nat.le_refl _, rfl⟩
  proposal proposal := ⟨proposal, rfl⟩
  commit committing := committing

theorem Advances.trans {replica middle next : Replica S} (first : Advances replica middle)
    (second : Advances middle next) : Advances replica next where
  round := second.round.trans first.round
  repair inside := by
    rcases first.repair inside with ⟨middleInside, viewLe, storeEq⟩
    rcases second.repair middleInside with ⟨nextInside, viewLe', storeEq'⟩
    exact ⟨nextInside, viewLe.trans viewLe', storeEq'.trans storeEq⟩
  proposal proposal := by
    obtain ⟨middleProposal, viewEq⟩ := first.proposal proposal
    obtain ⟨nextProposal, viewEq'⟩ := second.proposal middleProposal
    exact ⟨nextProposal, viewEq'.trans viewEq⟩
  commit committing := second.commit (first.commit committing)

/-- The round is finished, or progress is made inside it. -/
def Progress (replica next : Replica S) : Prop :=
  replica.round.toNat < next.round.toNat ∨ Advances replica next

theorem Progress.trans {replica middle next : Replica S} (first : Progress replica middle)
    (second : Progress middle next) : Progress replica next := by
  rcases first with finished | advances
  · rcases second with finishedAgain | advances
    · exact .inl (finished.trans finishedAgain)
    · exact .inl (advances.round ▸ finished)
  · rcases second with finished | advancesAgain
    · exact .inl (advances.round ▸ finished)
    · exact .inr (advances.trans advancesAgain)

variable [KvStoreOps S]

/-- Every REPAIR move finishes the round or advances inside it. -/
theorem progress_of_repairMove {replica next : Replica S} {effects : List Effect}
    (consistent : PhaseConsistent replica) (move : RepairMove replica next effects) :
    Progress replica next := by
  cases move with
  | quiet quiet _ => exact .inr (.of_quietStep quiet)
  | enter outside _ =>
      exact .inr (.of_outside rfl (consistent.inRepair_eq ▸ outside))
  | propose guard =>
      have collecting := (canBroadcastHistory_eq_some_iff.mp guard).1
      exact .inr ⟨rfl, fun _ => ⟨rfl, Nat.le_refl _, rfl⟩, by simp [collecting],
        by simp [collecting]⟩
  | vote relevant _ =>
      refine .inr ⟨rfl, fun _ => ⟨rfl, Nat.le_refl _, rfl⟩, fun _ => ⟨.inl rfl, rfl⟩, ?_⟩
      intro committing
      simp [committing] at relevant
  | lock _ =>
      exact .inr ⟨rfl, fun _ => ⟨rfl, Nat.le_refl _, rfl⟩, fun _ => ⟨.inr rfl, rfl⟩, fun _ => rfl⟩
  | apply _ advanced _ =>
      left
      exact UInt64.lt_iff_toNat_lt.mp (lt_of_addU64_one advanced)
  | catchup _ advanced =>
      left
      exact UInt64.lt_iff_toNat_lt.mp (lt_of_addU64_one advanced)
  | changeView collecting advanced =>
      refine .inr ⟨rfl, fun inside => ⟨inside, ?_, rfl⟩, by simp [collecting], by simp [collecting]⟩
      rw [toNat_of_addU64 advanced]
      exact Nat.le_add_right _ _

/-! ## Progress implied by a message -/

/-- The progress a replica has made once it has emitted `msg`: its round has
passed the message's, or is that very round and has reached the phase that
emits it. -/
def Spent (replica : Replica S) : Message → Prop
  | .logMsg _ view round logHash =>
      round.toNat < replica.round.toNat ∨
        (round = replica.round ∧ replica.phase.isRepair = true ∧
          view.toNat ≤ replica.view.toNat ∧ logHash = topHash replica.kvStore)
  | .repairHistory _ _ round _ =>
      round.toNat < replica.round.toNat ∨
        (round = replica.round ∧
          (replica.phase = .preparePhase ∨ replica.phase = .commitPhase))
  | .repairPrepare _ view round _ =>
      round.toNat < replica.round.toNat ∨
        (round = replica.round ∧ view = replica.view ∧
          (replica.phase = .preparePhase ∨ replica.phase = .commitPhase))
  | .repairCommit _ _ round _ =>
      round.toNat < replica.round.toNat ∨
        (round = replica.round ∧ replica.phase = .commitPhase)
  | .repairDone _ _ round _ => round.toNat < replica.round.toNat
  | _ => True

theorem spent_of_quiet {replica : Replica S} {msg : Message} (quiet : msg.isRepair = false) :
    Spent replica msg := by
  cases msg <;> trivial

/-- Finishing the round passes every message of it. -/
theorem Spent.of_round_lt {replica next : Replica S} {msg : Message}
    (spent : Spent replica msg) (finished : replica.round.toNat < next.round.toNat) :
    Spent next msg := by
  cases msg with
  | logMsg | repairHistory | repairPrepare | repairCommit =>
      rcases spent with past | ⟨rfl, _⟩
      · exact .inl (past.trans finished)
      · exact .inl finished
  | repairDone =>
      change _ < _ at spent
      exact spent.trans finished
  | _ => trivial

/-- Advancing inside the round keeps every message of it spent. -/
theorem Spent.of_advances {replica next : Replica S} {msg : Message}
    (spent : Spent replica msg) (advances : Advances replica next) : Spent next msg := by
  cases msg with
  | logMsg =>
      rcases spent with past | ⟨rfl, inside, viewLe, rfl⟩
      · exact .inl (advances.round ▸ past)
      · rcases advances.repair inside with ⟨nextInside, viewGrown, storeEq⟩
        exact .inr ⟨advances.round.symm, nextInside, viewLe.trans viewGrown, by rw [storeEq]⟩
  | repairHistory =>
      rcases spent with past | ⟨rfl, proposal⟩
      · exact .inl (advances.round ▸ past)
      · exact .inr ⟨advances.round.symm, (advances.proposal proposal).1⟩
  | repairPrepare =>
      rcases spent with past | ⟨rfl, rfl, proposal⟩
      · exact .inl (advances.round ▸ past)
      · obtain ⟨nextProposal, viewEq⟩ := advances.proposal proposal
        exact .inr ⟨advances.round.symm, viewEq.symm, nextProposal⟩
  | repairCommit =>
      rcases spent with past | ⟨rfl, committing⟩
      · exact .inl (advances.round ▸ past)
      · exact .inr ⟨advances.round.symm, advances.commit committing⟩
  | repairDone =>
      change _ < _ at spent ⊢
      rw [advances.round]
      exact spent
  | _ => trivial

/-- Progress is never lost. -/
theorem Spent.of_repairMove {replica next : Replica S} {effects : List Effect} {msg : Message}
    (consistent : PhaseConsistent replica) (spent : Spent replica msg)
    (move : RepairMove replica next effects) : Spent next msg := by
  rcases progress_of_repairMove consistent move with finished | advances
  · exact spent.of_round_lt finished
  · exact spent.of_advances advances

/-- An emitted message is spent as soon as it is out. -/
theorem spent_of_emitted {replica next : Replica S} {effects : List Effect} {effect : Effect}
    (move : RepairMove replica next effects) (effectMem : effect ∈ effects) :
    Spent next effect.message := by
  cases move with
  | quiet _ quiet => exact spent_of_quiet (quiet effect effectMem)
  | enter _ quiet =>
      rcases List.mem_append.mp effectMem with proofMem | logMem
      · exact spent_of_quiet (quiet effect proofMem)
      · rw [List.mem_singleton.mp logMem]
        exact .inr ⟨rfl, rfl, Nat.le_refl _, rfl⟩
  | propose _ =>
      rw [List.mem_singleton.mp effectMem]
      exact .inr ⟨rfl, .inl rfl⟩
  | vote _ _ =>
      rw [List.mem_singleton.mp effectMem]
      exact .inr ⟨rfl, rfl, .inl rfl⟩
  | lock _ =>
      rw [List.mem_singleton.mp effectMem]
      exact .inr ⟨rfl, rfl⟩
  | apply _ advanced _ =>
      rcases List.mem_cons.mp effectMem with rfl | replyMem
      · exact UInt64.lt_iff_toNat_lt.mp (lt_of_addU64_one advanced)
      · rw [List.mem_singleton.mp replyMem]
        trivial
  | catchup _ _ => simp at effectMem
  | changeView collecting _ =>
      rw [List.mem_singleton.mp effectMem]
      refine .inr ⟨rfl, ?_, Nat.le_refl _, rfl⟩
      simp [collecting, Phase.isRepair]

/-- A LOG or a REPAIR-PREPARE is emitted for the current round. -/
theorem round_of_emitted {replica next : Replica S} {effects : List Effect} {effect : Effect}
    {round : UInt64} (move : RepairMove replica next effects) (effectMem : effect ∈ effects)
    (kind : (∃ sender view logHash, effect.message = .logMsg sender view round logHash) ∨
      ∃ sender view hist, effect.message = .repairPrepare sender view round hist) :
    round = next.round := by
  have loud : effect.message.isRepair ≠ false := by
    rcases kind with ⟨_, _, _, isLog⟩ | ⟨_, _, _, isPrepare⟩
    · simp [isLog, Message.isRepair]
    · simp [isPrepare, Message.isRepair]
  cases move with
  | quiet _ quiet => exact absurd (quiet effect effectMem) loud
  | enter _ quiet =>
      rcases List.mem_append.mp effectMem with proofMem | logMem
      · exact absurd (quiet effect proofMem) loud
      · rw [List.mem_singleton.mp logMem] at kind
        simpa [logMsgEffect, Effect.message, eq_comm] using kind
  | changeView _ _ | vote _ _ =>
      rw [List.mem_singleton.mp effectMem] at kind
      simpa [logMsgEffect, Effect.message, eq_comm] using kind
  | propose _ | lock _ =>
      rw [List.mem_singleton.mp effectMem] at kind
      simp [Effect.message] at kind
  | apply _ _ _ =>
      rcases List.mem_cons.mp effectMem with rfl | replyMem
      · simp [Effect.message] at kind
      · rw [List.mem_singleton.mp replyMem] at kind
        simp [Effect.message] at kind
  | catchup _ _ => simp at effectMem

/-! ## Slots used by one move -/

/-- What a move adds to the slots of one kind: nothing, or one slot that the
stated condition on the replica keeps fresh. -/
def UsesSlot {κ : Type} (key : Effect → Option κ) (effects : List Effect)
    (fresh : κ → Prop) : Prop :=
  (∀ effect ∈ effects, key effect = none) ∨ ∃ slot, effects.filterMap key = [slot] ∧ fresh slot

theorem usesLogSlot {replica next : Replica S} {effects : List Effect}
    (consistent : PhaseConsistent replica) (move : RepairMove replica next effects) :
    UsesSlot logSlot effects fun slot => slot.2 = replica.round ∧
      (replica.phase.isRepair = false ∨ replica.view.toNat < slot.1.toNat) := by
  cases move with
  | quiet _ quiet => exact .inl fun effect effectMem => (slots_of_quiet (quiet effect effectMem)).1
  | @enter proof outside quiet =>
      have silent : proof.filterMap logSlot = [] :=
        List.filterMap_eq_nil_iff.mpr fun effect mem => (slots_of_quiet (quiet effect mem)).1
      refine .inr ⟨(replica.view, replica.round), ?_, rfl,
        .inl (consistent.inRepair_eq ▸ outside)⟩
      simp [silent, logMsgEffect, logSlot, Effect.message]
  | propose _ | vote _ _ | lock _ | apply _ _ _ | catchup _ _ =>
      exact .inl (by simp [logSlot, Effect.message])
  | @changeView view _ advanced =>
      refine .inr ⟨(view, replica.round), ?_, rfl, .inr ?_⟩
      · simp [logMsgEffect, logSlot, Effect.message]
      · exact UInt64.lt_iff_toNat_lt.mp (lt_of_addU64_one advanced)

theorem usesHistorySlot {replica next : Replica S} {effects : List Effect}
    (move : RepairMove replica next effects) :
    UsesSlot historySlot effects fun round =>
      round = replica.round ∧ replica.phase = .collectingLogs := by
  cases move with
  | quiet _ quiet =>
      exact .inl fun effect effectMem => (slots_of_quiet (quiet effect effectMem)).2.1
  | enter _ quiet =>
      left
      intro effect effectMem
      rcases List.mem_append.mp effectMem with proofMem | logMem
      · exact (slots_of_quiet (quiet effect proofMem)).2.1
      · rw [List.mem_singleton.mp logMem]
        rfl
  | propose guard =>
      exact .inr ⟨_, rfl, rfl, (canBroadcastHistory_eq_some_iff.mp guard).1⟩
  | vote _ _ | lock _ | apply _ _ _ | catchup _ _ | changeView _ _ =>
      exact .inl (by simp [logMsgEffect, historySlot, Effect.message])

theorem usesCommitSlot {replica next : Replica S} {effects : List Effect}
    (move : RepairMove replica next effects) :
    UsesSlot commitSlot effects fun round =>
      round = replica.round ∧ replica.phase = .preparePhase := by
  cases move with
  | quiet _ quiet =>
      exact .inl fun effect effectMem => (slots_of_quiet (quiet effect effectMem)).2.2.1
  | enter _ quiet =>
      left
      intro effect effectMem
      rcases List.mem_append.mp effectMem with proofMem | logMem
      · exact (slots_of_quiet (quiet effect proofMem)).2.2.1
      · rw [List.mem_singleton.mp logMem]
        rfl
  | lock guard => exact .inr ⟨_, rfl, rfl, (canRepairCommit_eq_some_iff.mp guard).1⟩
  | propose _ | vote _ _ | apply _ _ _ | catchup _ _ | changeView _ _ =>
      exact .inl (by simp [logMsgEffect, commitSlot, Effect.message])

theorem usesDoneSlot {replica next : Replica S} {effects : List Effect}
    (move : RepairMove replica next effects) :
    UsesSlot doneSlot effects fun round => round = replica.round := by
  cases move with
  | quiet _ quiet =>
      exact .inl fun effect effectMem => (slots_of_quiet (quiet effect effectMem)).2.2.2
  | enter _ quiet =>
      left
      intro effect effectMem
      rcases List.mem_append.mp effectMem with proofMem | logMem
      · exact (slots_of_quiet (quiet effect proofMem)).2.2.2
      · rw [List.mem_singleton.mp logMem]
        rfl
  | apply _ _ _ => exact .inr ⟨replica.round, by simp [doneSlot, Effect.message], rfl⟩
  | propose _ | vote _ _ | lock _ | catchup _ _ | changeView _ _ =>
      exact .inl (by simp [logMsgEffect, doneSlot, Effect.message])

omit [KvStoreOps S] in
/-- A kind whose used slots are always fresh stays once-only. -/
theorem onceOnly_of_usesSlot {κ : Type} {key : Effect → Option κ} {trace effects : List Effect}
    {fresh : κ → Prop} (once : OnceOnly key trace) (uses : UsesSlot key effects fresh)
    (unused : ∀ slot, fresh slot → ∀ effect ∈ trace, key effect ≠ some slot) :
    OnceOnly key (trace ++ effects) := by
  rcases uses with none | ⟨slot, single, isFresh⟩
  · exact once.append_other none
  · exact once.append_fresh single (unused slot isFresh)

/-! ## The emission invariant -/

/-- What a replica may have broadcast over its whole life: one LOG for each view
and round, all LOGs of a round over the same log, and one REPAIR-HISTORY, one
REPAIR-COMMIT and one REPAIR-DONE for each round. -/
structure BroadcastOnce (trace : List Effect) : Prop where
  log : OnceOnly logSlot trace
  logHash : Agree roundLog trace
  history : OnceOnly historySlot trace
  commit : OnceOnly commitSlot trace
  done : OnceOnly doneSlot trace

/-- The inductive form: every emitted message is spent, and all votes of a round
are cast in one view. -/
structure Emitted (replica : Replica S) (trace : List Effect) : Prop where
  consistent : PhaseConsistent replica
  spent : ∀ effect ∈ trace, Spent replica effect.message
  once : BroadcastOnce trace
  oneView : Agree roundView trace

theorem emitted_new (config : Config) (nodeId : NodeId) (kvStore : S) :
    Emitted (Replica.new config nodeId kvStore) [] where
  consistent := phaseConsistent_new config nodeId kvStore
  spent effect effectMem := by simp at effectMem
  once :=
    { log := onceOnly_nil _
      logHash := agree_nil _
      history := onceOnly_nil _
      commit := onceOnly_nil _
      done := onceOnly_nil _ }
  oneView := agree_nil _

namespace Emitted

variable {replica next : Replica S} {trace effects : List Effect}

theorem spent_append (emitted : Emitted replica trace) (move : RepairMove replica next effects) :
    ∀ effect ∈ trace ++ effects, Spent next effect.message := by
  intro effect effectMem
  rcases List.mem_append.mp effectMem with old | new
  · exact (emitted.spent effect old).of_repairMove emitted.consistent move
  · exact spent_of_emitted move new

/-- A LOG is only emitted for a view and round that has no LOG yet. -/
theorem log_append (emitted : Emitted replica trace) (move : RepairMove replica next effects) :
    OnceOnly logSlot (trace ++ effects) := by
  apply onceOnly_of_usesSlot emitted.once.log (usesLogSlot emitted.consistent move)
  rintro ⟨view, round⟩ ⟨rfl, fresh⟩ effect effectMem used
  rcases logSlot_eq_some_iff.mp used with ⟨sender, logHash, isLog⟩
  have spent := emitted.spent effect effectMem
  rw [isLog] at spent
  rcases spent with past | ⟨_, inside, viewLe, _⟩
  · exact absurd past (Nat.lt_irrefl _)
  · rcases fresh with outside | newer
    · rw [outside] at inside
      contradiction
    · exact absurd viewLe (Nat.not_le.mpr newer)

theorem history_append (emitted : Emitted replica trace)
    (move : RepairMove replica next effects) : OnceOnly historySlot (trace ++ effects) := by
  apply onceOnly_of_usesSlot emitted.once.history (usesHistorySlot move)
  rintro round ⟨rfl, collecting⟩ effect effectMem used
  rcases historySlot_eq_some_iff.mp used with ⟨sender, view, hist, isHistory⟩
  have spent := emitted.spent effect effectMem
  rw [isHistory] at spent
  rcases spent with past | ⟨_, proposal⟩
  · exact absurd past (Nat.lt_irrefl _)
  · simp [collecting] at proposal

theorem commit_append (emitted : Emitted replica trace)
    (move : RepairMove replica next effects) : OnceOnly commitSlot (trace ++ effects) := by
  apply onceOnly_of_usesSlot emitted.once.commit (usesCommitSlot move)
  rintro round ⟨rfl, preparing⟩ effect effectMem used
  rcases commitSlot_eq_some_iff.mp used with ⟨sender, view, hist, isCommit⟩
  have spent := emitted.spent effect effectMem
  rw [isCommit] at spent
  rcases spent with past | ⟨_, committing⟩
  · exact absurd past (Nat.lt_irrefl _)
  · simp [preparing] at committing

theorem done_append (emitted : Emitted replica trace) (move : RepairMove replica next effects) :
    OnceOnly doneSlot (trace ++ effects) := by
  apply onceOnly_of_usesSlot emitted.once.done (usesDoneSlot move)
  rintro round rfl effect effectMem used
  rcases doneSlot_eq_some_iff.mp used with ⟨sender, view, hist, isDone⟩
  have spent := emitted.spent effect effectMem
  rw [isDone] at spent
  exact absurd spent (Nat.lt_irrefl _)

/-- REPAIR freezes the log, and a finished round sends no LOG again. -/
theorem logHash_append (emitted : Emitted replica trace)
    (move : RepairMove replica next effects) : Agree roundLog (trace ++ effects) := by
  apply emitted.once.logHash.append (fun round => round.toNat < next.round.toNat)
    (fun _ => topHash next.kvStore)
  · intro effect effectMem round logHash reports finished
    rcases roundLog_eq_some_iff.mp reports with ⟨sender, view, isLog⟩
    rw [round_of_emitted move effectMem (.inl ⟨_, _, _, isLog⟩)] at finished
    exact absurd finished (Nat.lt_irrefl _)
  · intro effect effectMem round logHash reports
    rcases roundLog_eq_some_iff.mp reports with ⟨sender, view, isLog⟩
    have spent := emitted.spent_append move effect effectMem
    rw [isLog] at spent
    exact spent.imp_right fun ⟨_, _, _, sameLog⟩ => sameLog

/-- The view cannot change any more once a vote of the round is out. -/
theorem oneView_append (emitted : Emitted replica trace)
    (move : RepairMove replica next effects) : Agree roundView (trace ++ effects) := by
  apply emitted.oneView.append (fun round => round.toNat < next.round.toNat)
    (fun _ => next.view)
  · intro effect effectMem round view votes finished
    rcases roundView_eq_some_iff.mp votes with ⟨sender, hist, isPrepare⟩
    rw [round_of_emitted move effectMem (.inr ⟨_, _, _, isPrepare⟩)] at finished
    exact absurd finished (Nat.lt_irrefl _)
  · intro effect effectMem round view votes
    rcases roundView_eq_some_iff.mp votes with ⟨sender, hist, isPrepare⟩
    have spent := emitted.spent_append move effect effectMem
    rw [isPrepare] at spent
    exact spent.imp_right fun ⟨_, sameView, _⟩ => sameView

/-- Every REPAIR move keeps the emission invariant. -/
theorem of_repairMove (emitted : Emitted replica trace) (move : RepairMove replica next effects) :
    Emitted next (trace ++ effects) where
  consistent := emitted.consistent.of_repairMove move
  spent := emitted.spent_append move
  once :=
    { log := emitted.log_append move
      logHash := emitted.logHash_append move
      history := emitted.history_append move
      commit := emitted.commit_append move
      done := emitted.done_append move }
  oneView := emitted.oneView_append move

end Emitted

variable {config : Config} {nodeId : NodeId} {kvStore : S} {history : History S}

theorem emitted_of_localRun (run : LocalRun config nodeId kvStore history) :
    Emitted history.replica history.effects :=
  run.repair_invariant (emitted_new config nodeId kvStore) Emitted.of_repairMove

/-- Over a whole run a replica broadcasts at most one LOG for each view and
round, one REPAIR-HISTORY, one REPAIR-COMMIT and one REPAIR-DONE for each round,
and all its LOGs of one round carry the same hash. -/
theorem repair_broadcasts_once (run : LocalRun config nodeId kvStore history) :
    BroadcastOnce history.effects :=
  (emitted_of_localRun run).once

section Solo

attribute [local instance] plainHasher

theorem repair_broadcasts_once_solo :
    soloHistory.effects.filterMap commitSlot = [0] ∧ BroadcastOnce soloHistory.effects :=
  ⟨by decide +kernel, repair_broadcasts_once localRun_soloHistory⟩

end Solo

end Raspen
