import Raspen.Consensus.PastRounds
import Raspen.Transition.Convergence

/-!
# The order of REPAIR votes

A follower that collects the votes of one round only stores them; how far the
round has got is a function of the stored votes.  So the votes may arrive in any
order, before the proposal or after the repair is applied.
-/

namespace Raspen

open Raspen.Transition

variable {S : Type}

/-- A REPAIR-HISTORY, REPAIR-PREPARE or REPAIR-COMMIT for `(view, round)`. -/
def Message.isVoteAt (view round : UInt64) : Message → Bool
  | .repairHistory _ v r _ | .repairPrepare _ v r _ | .repairCommit _ v r _ =>
      v == view && r == round
  | _ => false

/-- A follower that collects votes for `historyHash` in `(view, round)`. -/
structure Collecting (view round historyHash : UInt64) (replica : Replica S) : Prop where
  phase : replica.phase = .collectingLogs
  sameView : replica.view = view
  sameRound : replica.round = round
  follower : replica.isLeader = false
  byzQuorum : 0 < replica.config.byzQuorum
  fastQuorum : 0 < replica.config.fastQuorum
  fPlus1 : 0 < replica.config.fPlus1
  noLater : ∀ msg, replica.Stores msg → ∀ msgRound, msg.inRound = some msgRound →
    msgRound ≤ round
  fewDone : (replica.repairDoneMsgs.filter (·.isRepairDoneAt view round)).card <
    replica.config.fPlus1
  oneHistory : ∀ sender hist, .repairHistory sender view round hist ∈ replica.repairHistoryMsgs →
    hist = historyHash

/-- A vote that does not propose another history. -/
def Fits (view round historyHash : UInt64) (msg : Message) : Prop :=
  msg.isVoteAt view round = true ∧
    ∀ sender hist, msg = .repairHistory sender view round hist → hist = historyHash

/-- A vote belongs to one of three categories. -/
theorem isVoteAt_cases {view round : UInt64} {msg : Message}
    (vote : msg.isVoteAt view round = true) :
    msg.inRound = some round ∧ (msg.isRepairHistory = true ∨ msg.isRepairPrepare = true ∨
      msg.isRepairCommit = true) := by
  cases msg <;> simp_all [Message.isVoteAt, Message.inRound, Message.isRepairHistory,
    Message.isRepairPrepare, Message.isRepairCommit]

namespace Collecting

variable {view round historyHash : UInt64} {replica : Replica S} {msg : Message}

/-- Storing a fitting vote goes on collecting. -/
theorem store (collecting : Collecting view round historyHash replica)
    (fits : Fits view round historyHash msg) :
    Collecting view round historyHash (replica.store msg) where
  phase := by simpa using collecting.phase
  sameView := by simpa using collecting.sameView
  sameRound := by simpa using collecting.sameRound
  follower := isLeader_store.trans collecting.follower
  byzQuorum := by simpa using collecting.byzQuorum
  fastQuorum := by simpa using collecting.fastQuorum
  fPlus1 := by simpa using collecting.fPlus1
  noLater := by
    intro stored isStored msgRound inRound
    rcases stores_store isStored with rfl | old
    · rw [(isVoteAt_cases fits.1).1] at inRound
      cases inRound
      exact UInt64.le_refl _
    · exact collecting.noLater stored old msgRound inRound
  fewDone := by
    have same : (replica.store msg).repairDoneMsgs = replica.repairDoneMsgs := by
      have kind := (isVoteAt_cases fits.1).2
      cases msg <;> first | rfl | simp_all [Message.isRepairHistory, Message.isRepairPrepare,
        Message.isRepairCommit]
    rw [same, Replica.store_config]
    exact collecting.fewDone
  oneHistory := by
    intro sender hist stored
    have sub : (replica.store msg).repairHistoryMsgs ⊆ insert msg replica.repairHistoryMsgs := by
      cases msg <;> simp [Replica.store, Finset.subset_insert]
    rcases Finset.mem_insert.mp (sub stored) with new | old
    · exact fits.2 sender hist new.symm
    · exact collecting.oneHistory sender hist old

end Collecting

/-! ## How far a round has got -/

/-- The replica after its prepare vote. -/
def prepared (historyHash : UInt64) (replica : Replica S) : Replica S :=
  { replica with phase := .preparePhase, proposedHistoryHash := historyHash }

/-- The replica after its commit vote. -/
def locked (historyHash : UInt64) (replica : Replica S) : Replica S :=
  { replica with phase := .commitPhase, proposedHistoryHash := historyHash }

/-- Some history is stored for the current view and round. -/
def HasHistory (replica : Replica S) : Prop :=
  (replica.repairHistoryMsgs.filter
    (·.isRepairHistoryAt replica.view replica.round)).Nonempty

instance (replica : Replica S) : Decidable (HasHistory replica) :=
  inferInstanceAs (Decidable (Finset.Nonempty _))

/-- A replica with the numbers of REPAIR-COMMITs and REPAIR-DONEs it has sent. -/
structure Tally (S : Type) where
  replica : Replica S
  commits : Nat
  dones : Nat

/-- Count the votes among the effects of a call. -/
def Tally.add (tally : Tally S) (ended : Outcome S) : Tally S where
  replica := ended.1
  commits := tally.commits + ended.2.countP (·.message.isRepairCommit)
  dones := tally.dones + ended.2.countP (·.message.isRepairDone)

theorem hasHistory_store {replica : Replica S} (msg : Message) (has : HasHistory replica) :
    HasHistory (replica.store msg) := by
  unfold HasHistory at has ⊢
  rw [Replica.store_view, Replica.store_round]
  have sub : replica.repairHistoryMsgs ⊆ (replica.store msg).repairHistoryMsgs :=
    (QuietStep.store replica msg).repairHistoryMsgs
  exact has.mono (Finset.filter_subset_filter _ sub)

theorem prepared_store (historyHash : UInt64) (replica : Replica S) (msg : Message) :
    (prepared historyHash replica).store msg = prepared historyHash (replica.store msg) := by
  cases msg <;> rfl

theorem locked_store (historyHash : UInt64) (replica : Replica S) (msg : Message) :
    (locked historyHash replica).store msg = locked historyHash (replica.store msg) := by
  cases msg <;> rfl

/-! The guards that the votes feed, as blocks that store nothing. -/

def prepareGuard (order : HashOrder) : ReplicaStage S :=
  .guard fun replica => (canRepairPrepare order replica).map .repairPrepare

def commitGuard : ReplicaStage S :=
  .guard fun replica => (canRepairCommit replica).map .repairCommit

def applyGuard : ReplicaStage S :=
  .guard fun replica => (canApplyRepair replica).map .applyRepair

def catchupGuard : ReplicaStage S :=
  .guard fun replica => (canRepairDoneCatchup replica).map .repairDoneCatchup

section Guards

variable {order : HashOrder} {replica : Replica S}

theorem prepareGuard_silent (silent : canRepairPrepare order replica = none) :
    (prepareGuard order).listen replica = none :=
  Option.map_eq_none_iff.mpr silent

theorem commitGuard_silent (silent : canRepairCommit replica = none) :
    commitGuard.listen replica = none :=
  Option.map_eq_none_iff.mpr silent

theorem applyGuard_silent (silent : canApplyRepair replica = none) :
    applyGuard.listen replica = none :=
  Option.map_eq_none_iff.mpr silent

theorem catchupGuard_silent (silent : canRepairDoneCatchup replica = none) :
    catchupGuard.listen replica = none :=
  Option.map_eq_none_iff.mpr silent

end Guards

variable [KvStoreOps S]

/-! ## Delivering votes -/

/-- Deliver one message. -/
def Tally.deliver (tally : Tally S) (delivery : HashOrder × Message) : Option (Tally S) :=
  (processMessage delivery.1 tally.replica delivery.2).map tally.add

/-- Where a follower stands after its commit vote. -/
def settleLocked (historyHash : UInt64) (replica : Replica S) : Option (Tally S) :=
  match canApplyRepair (locked historyHash replica) with
  | none => some ⟨locked historyHash replica, 1, 0⟩
  | some _ =>
      (handleApplyRepair (locked historyHash replica) historyHash).map
        fun ended => ⟨ended.1, 1, 1⟩

/-- Where a follower stands after its prepare vote. -/
def settlePrepared (historyHash : UInt64) (replica : Replica S) : Option (Tally S) :=
  match canRepairCommit (prepared historyHash replica) with
  | none => some ⟨prepared historyHash replica, 0, 0⟩
  | some _ => settleLocked historyHash replica

/-- Where a follower stands that has collected its votes. -/
def settle (historyHash : UInt64) (replica : Replica S) : Option (Tally S) :=
  if HasHistory replica then settlePrepared historyHash replica else some ⟨replica, 0, 0⟩

/-! ## One pass over the stored votes -/

/-- No block before the votes reacts to a vote in REPAIR. -/
theorem normalStages_of_vote {view round : UInt64} {msg : Message} {replica : Replica S}
    (vote : msg.isVoteAt view round = true) (inside : replica.phase.isRepair = true) :
    runStages perform (normalStages msg) replica = some (replica, []) := by
  have notSpeculative : replica.phase ≠ .speculative := by
    intro speculative
    simp [speculative, Phase.isRepair] at inside
  have notAligning : replica.phase ≠ .aligning := by
    intro aligning
    simp [aligning, Phase.isRepair] at inside
  have unstored : ∀ stage ∈ normalStages (S := S) msg, stage.store replica = replica := by
    intro stage stageMem
    simp only [normalStages, List.mem_cons, List.not_mem_nil, or_false] at stageMem
    rcases stageMem with rfl | rfl | rfl | rfl | rfl | rfl | rfl | rfl | rfl <;>
      cases msg <;> first | rfl | contradiction
  apply runStages_of_silent
  intro stage stageMem
  constructor
  · exact unstored stage stageMem
  · simp only [normalStages, List.mem_cons, List.not_mem_nil, or_false] at stageMem
    rcases stageMem with rfl | rfl | rfl | rfl | rfl | rfl | rfl | rfl | rfl <;>
      apply Option.map_eq_none_iff.mpr
    · cases msg <;> first | contradiction | rfl
    · simp [canSendSyncThreshold, notSpeculative]
    · simp [canFormCheckpoint, notSpeculative]
    · simp [canEnterAlign, notSpeculative]
    · simp [canConflictProof, notSpeculative]
    · simp [canTimeoutProof, notSpeculative]
    · cases msg <;> first | contradiction | simp [canEnterRepair]
    · cases msg <;> first | contradiction | rfl
    · simp [canStateReply, notAligning]

/-- A follower in REPAIR may store a vote before it runs the guards. -/
theorem processMessage_of_vote {order : HashOrder} {view round : UInt64} {msg : Message}
    {replica : Replica S} (vote : msg.isVoteAt view round = true)
    (inside : replica.phase.isRepair = true) (follower : replica.isLeader = false) :
    processMessage order replica msg =
      runStages perform [prepareGuard order, commitGuard, applyGuard, catchupGuard]
        (replica.store msg) := by
  have noBroadcast : canBroadcastHistory replica = none := by
    simp [canBroadcastHistory, follower]
  have early : runStages perform (voteStages order msg ++ exitStages msg) replica =
      runStages perform [prepareGuard order, commitGuard, applyGuard, catchupGuard]
        (replica.store msg) := by
    rw [voteStages, List.cons_append, runStages_cons_of_silent
      (by cases msg <;> first | contradiction | rfl) (Option.map_eq_none_iff.mpr noBroadcast)]
    cases msg with
    | repairHistory sender v r hist => rfl
    | repairPrepare sender v r hist =>
        have unread : ∀ stage ∈ [prepareGuard order], ∀ s : Replica S,
            stage.listen (s.store (.repairPrepare sender v r hist)) = stage.listen s := by
          intro stage stageMem s
          rw [List.mem_singleton.mp stageMem]
          exact congrArg (Option.map Cue.repairPrepare) (canRepairPrepare_store rfl)
        calc
          _ = runStages perform ([prepareGuard order] ++
              ⟨fun s => s.store (.repairPrepare sender v r hist), commitGuard.listen⟩ ::
                [applyGuard, catchupGuard]) replica := rfl
          _ = _ := runStages_put_early [prepareGuard order] (fun s cue => perform_store s _ cue)
              (by simp [prepareGuard, Stage.guard]) unread replica
    | repairCommit sender v r hist =>
        have unread : ∀ stage ∈ [prepareGuard order, commitGuard], ∀ s : Replica S,
            stage.listen (s.store (.repairCommit sender v r hist)) = stage.listen s := by
          intro stage stageMem s
          rcases List.mem_pair.mp stageMem with rfl | rfl
          · exact congrArg (Option.map Cue.repairPrepare) (canRepairPrepare_store rfl)
          · exact congrArg (Option.map Cue.repairCommit) (canRepairCommit_store rfl)
        calc
          _ = runStages perform ([prepareGuard order, commitGuard] ++
              ⟨fun s => s.store (.repairCommit sender v r hist), applyGuard.listen⟩ ::
                [catchupGuard]) replica := rfl
          _ = _ := runStages_put_early [prepareGuard order, commitGuard]
              (fun s cue => perform_store s _ cue)
              (by simp [prepareGuard, commitGuard, Stage.guard]) unread replica
    | _ => contradiction
  rw [processMessage, runStages_append, normalStages_of_vote vote inside, Option.bind_some, early]
  simp

/-! ## The guards of one pass -/

section Pass

variable {order : HashOrder} {view round historyHash : UInt64} {replica : Replica S}
  {tally : Tally S}

omit [KvStoreOps S] in
theorem Tally.add_append (tally : Tally S) (middle final : Replica S)
    (first second : List Effect) :
    tally.add (final, first ++ second) = (tally.add (middle, first)).add (final, second) := by
  simp [Tally.add, List.countP_append, Nat.add_assoc]

/-- What a block sends is counted before what the later ones send. -/
theorem map_add_of_heard {stage : ReplicaStage S} {rest : List (ReplicaStage S)} {cue : Cue}
    {next : Replica S} {effects : List Effect} (stores : stage.store replica = replica)
    (hears : stage.listen replica = some cue)
    (performs : perform replica cue = some (next, effects)) :
    (runStages perform (stage :: rest) replica).map tally.add =
      (runStages perform rest next).map (tally.add (next, effects)).add := by
  rw [runStages_cons_of_heard stores hears performs, Option.map_map]
  congr 1
  funext ended
  exact Tally.add_append tally next ended.1 effects ended.2

omit [KvStoreOps S] in
theorem catchup_silent (few : (replica.repairDoneMsgs.filter
    (·.isRepairDoneAt replica.view replica.round)).card < replica.config.fPlus1) :
    canRepairDoneCatchup replica = none := by
  simp [canRepairDoneCatchup, Nat.not_le.mpr few]

omit [KvStoreOps S] in
/-- Without enough REPAIR-DONEs a follower never catches up. -/
theorem Collecting.few (collecting : Collecting view round historyHash replica) :
    (replica.repairDoneMsgs.filter
      (·.isRepairDoneAt replica.view replica.round)).card < replica.config.fPlus1 := by
  rw [collecting.sameView, collecting.sameRound]
  exact collecting.fewDone

/-- The last two guards, after the commit vote. -/
theorem map_add_locked (collecting : Collecting view round historyHash replica)
    (oneCommit : tally.commits = 1) (noDone : tally.dones = 0) :
    (runStages perform [applyGuard, catchupGuard] (locked historyHash replica)).map tally.add =
      settleLocked historyHash replica := by
  have silent : canRepairDoneCatchup (locked historyHash replica) = none :=
    catchup_silent collecting.few
  unfold settleLocked
  cases applies : canApplyRepair (locked historyHash replica) with
  | none =>
      rw [runStages_cons_of_silent rfl (applyGuard_silent applies),
        runStages_cons_of_silent rfl (catchupGuard_silent silent)]
      simp [runStages, Tally.add, oneCommit, noDone]
  | some voted =>
      obtain ⟨_, same, _⟩ := canApplyRepair_eq_some_iff.mp applies
      have hears : applyGuard.listen (locked historyHash replica) =
          some (.applyRepair historyHash) := by
        have named : voted = historyHash := same
        rw [named] at applies
        exact congrArg (Option.map Cue.applyRepair) applies
      cases handled : handleApplyRepair (locked historyHash replica) historyHash with
      | none =>
          rw [runStages_cons_of_failed rfl hears handled]
          rfl
      | some ended =>
          rcases handleApplyRepair_eq_some handled with ⟨_, _, _, _, speculative, sent⟩
          have exited : canRepairDoneCatchup ended.1 = none :=
            canRepairDoneCatchup_of_speculative (by rw [speculative])
          rw [map_add_of_heard rfl hears handled,
            runStages_cons_of_silent rfl (catchupGuard_silent exited)]
          simp [runStages, Tally.add, oneCommit, noDone, sent, Effect.message,
            Message.isRepairCommit, Message.isRepairDone]

/-- The last three guards, after the prepare vote. -/
theorem map_add_prepared (collecting : Collecting view round historyHash replica)
    (noCommit : tally.commits = 0) (noDone : tally.dones = 0) :
    (runStages perform [commitGuard, applyGuard, catchupGuard]
      (prepared historyHash replica)).map tally.add = settlePrepared historyHash replica := by
  unfold settlePrepared
  cases votes : canRepairCommit (prepared historyHash replica) with
  | none =>
      have noApply : canApplyRepair (prepared historyHash replica) = none :=
        apply_silent (by simp [prepared])
      have silent : canRepairDoneCatchup (prepared historyHash replica) = none :=
        catchup_silent collecting.few
      rw [runStages_cons_of_silent rfl (commitGuard_silent votes),
        runStages_cons_of_silent rfl (applyGuard_silent noApply),
        runStages_cons_of_silent rfl (catchupGuard_silent silent)]
      simp [runStages, Tally.add, noCommit, noDone]
  | some voted =>
      have hears : commitGuard.listen (prepared historyHash replica) = some (.repairCommit voted) :=
        congrArg (Option.map Cue.repairCommit) votes
      have performs : perform (prepared historyHash replica) (.repairCommit voted) =
          some (locked historyHash replica,
            [.broadcast (.repairCommit replica.nodeId replica.view replica.round voted)]) := rfl
      rw [map_add_of_heard rfl hears performs]
      exact map_add_locked collecting
        (by simp [Tally.add, noCommit, Effect.message, Message.isRepairCommit])
        (by simp [Tally.add, noDone, Effect.message, Message.isRepairDone])

omit [KvStoreOps S] in
theorem isSome_historyFor (view round : UInt64) (msg : Message) :
    (historyFor view round msg).isSome = msg.isRepairHistoryAt view round := by
  cases msg with
  | repairHistory sender v r hist =>
      rw [Bool.eq_iff_iff, Option.isSome_iff_exists]
      simp [historyFor, Message.isRepairHistoryAt]
  | _ => rfl

omit [KvStoreOps S] in
/-- A prepare vote is due exactly when some history is stored. -/
theorem canRepairPrepare_ne_none_iff (relevant : replica.phase = .collectingLogs ∨
    replica.phase = .preparePhase) :
    canRepairPrepare order replica ≠ none ↔ HasHistory replica := by
  constructor
  · intro votes
    obtain ⟨hist, votes⟩ := Option.ne_none_iff_exists'.mp votes
    rcases canRepairPrepare_eq_some votes with ⟨_, sender, stored⟩
    exact ⟨_, Finset.mem_filter.mpr ⟨stored, by simp [Message.isRepairHistoryAt]⟩⟩
  · rintro ⟨msg, msgMem⟩ silent
    obtain ⟨stored, isAt⟩ := Finset.mem_filter.mp msgMem
    have searched : ¬(replica.phase ≠ .collectingLogs ∧ replica.phase ≠ .preparePhase) := by
      rcases relevant with collecting | preparing
      · simp [collecting]
      · simp [preparing]
    rw [canRepairPrepare, if_neg searched] at silent
    rw [← isSome_historyFor, order.complete silent msg stored] at isAt
    contradiction

omit [KvStoreOps S] in
/-- All stored histories propose the same hash, so the vote is for it. -/
theorem canRepairPrepare_of_hasHistory (relevant : replica.phase = .collectingLogs ∨
    replica.phase = .preparePhase) (has : HasHistory replica)
    (oneHistory : ∀ sender hist, .repairHistory sender replica.view replica.round hist ∈
      replica.repairHistoryMsgs → hist = historyHash) :
    canRepairPrepare order replica = some historyHash := by
  obtain ⟨hist, votes⟩ :=
    Option.ne_none_iff_exists'.mp ((canRepairPrepare_ne_none_iff relevant).mpr has)
  rcases canRepairPrepare_eq_some votes with ⟨_, sender, stored⟩
  rw [votes, oneHistory sender hist stored]

/-- All guards, before the prepare vote or repeating it. -/
theorem map_add_voting {voting : Replica S}
    (collecting : Collecting view round historyHash replica) (has : HasHistory replica)
    (stands : voting = replica ∨ voting = prepared historyHash replica)
    (noCommit : tally.commits = 0) (noDone : tally.dones = 0) :
    (runStages perform [prepareGuard order, commitGuard, applyGuard, catchupGuard] voting).map
      tally.add = settlePrepared historyHash replica := by
  have oneHistory := collecting.oneHistory
  rw [← collecting.sameView, ← collecting.sameRound] at oneHistory
  have votes : canRepairPrepare order voting = some historyHash := by
    rcases stands with rfl | rfl
    · exact canRepairPrepare_of_hasHistory (.inl collecting.phase) has oneHistory
    · exact canRepairPrepare_of_hasHistory (.inr rfl) has oneHistory
  have performs : perform voting (.repairPrepare historyHash) =
      some (prepared historyHash replica, [.broadcast
        (.repairPrepare replica.nodeId replica.view replica.round historyHash)]) := by
    rcases stands with rfl | rfl <;> rfl
  have hears : (prepareGuard order).listen voting = some (.repairPrepare historyHash) :=
    congrArg (Option.map Cue.repairPrepare) votes
  rw [map_add_of_heard rfl hears performs]
  exact map_add_prepared collecting
    (by simp [Tally.add, noCommit, Effect.message, Message.isRepairCommit])
    (by simp [Tally.add, noDone, Effect.message, Message.isRepairDone])

/-- All guards, before any vote. -/
theorem map_add_collecting (collecting : Collecting view round historyHash replica)
    (noCommit : tally.commits = 0) (noDone : tally.dones = 0) :
    (runStages perform [prepareGuard order, commitGuard, applyGuard, catchupGuard] replica).map
      tally.add = settle historyHash replica := by
  unfold settle
  split
  · rename_i has
    exact map_add_voting collecting has (.inl rfl) noCommit noDone
  · rename_i missing
    have silent : ∀ stage ∈ [prepareGuard order, commitGuard, applyGuard, catchupGuard],
        stage.store replica = replica ∧ stage.listen replica = none := by
      intro stage stageMem
      simp only [List.mem_cons, List.not_mem_nil, or_false] at stageMem
      have relevant : replica.phase = .collectingLogs ∨ replica.phase = .preparePhase :=
        .inl collecting.phase
      rcases stageMem with rfl | rfl | rfl | rfl
      · exact ⟨rfl, prepareGuard_silent
          (by_contra fun votes => missing ((canRepairPrepare_ne_none_iff relevant).mp votes))⟩
      · exact ⟨rfl, commitGuard_silent (commit_silent (by simp [collecting.phase]))⟩
      · exact ⟨rfl, applyGuard_silent (apply_silent (by simp [collecting.phase]))⟩
      · exact ⟨rfl, catchupGuard_silent (catchup_silent collecting.few)⟩
    rw [runStages_of_silent silent]
    simp [Tally.add, noCommit, noDone]

/-- After the commit vote the first two guards are silent. -/
theorem map_add_after_lock (collecting : Collecting view round historyHash replica)
    (oneCommit : tally.commits = 1) (noDone : tally.dones = 0) :
    (runStages perform [prepareGuard order, commitGuard, applyGuard, catchupGuard]
      (locked historyHash replica)).map tally.add = settleLocked historyHash replica := by
  have noPrepare : canRepairPrepare order (locked historyHash replica) = none := by
    simp [canRepairPrepare, locked]
  have noVote : canRepairCommit (locked historyHash replica) = none :=
    commit_silent (by simp [locked])
  rw [runStages_cons_of_silent rfl (prepareGuard_silent noPrepare),
    runStages_cons_of_silent rfl (commitGuard_silent noVote)]
  exact map_add_locked collecting oneCommit noDone

end Pass

/-! ## After the round -/

/-- A replica that has just left the round of every message it stores. -/
structure Finished (replica : Replica S) : Prop where
  phase : replica.phase = .speculative
  byzQuorum : 0 < replica.config.byzQuorum
  fastQuorum : 0 < replica.config.fastQuorum
  fPlus1 : 0 < replica.config.fPlus1
  left : ∀ msg, replica.Stores msg → ∀ round, msg.inRound = some round → round < replica.round

namespace Finished

variable {replica : Replica S}

omit [KvStoreOps S] in
/-- Nothing is stored for the round that has begun. -/
theorem filter_eq_empty (finished : Finished replica) {msgs : Finset Message}
    (stored : msgs ∈ replica.inbox) {pattern : Message → Bool}
    (ofRound : Message.OfRound replica.round pattern) :
    msgs.filter (fun msg => pattern msg) = ∅ := by
  rw [Finset.filter_eq_empty_iff]
  intro msg msgMem accepted
  have before := finished.left msg ⟨msgs, stored, msgMem⟩ _ (ofRound msg accepted)
  exact absurd before (UInt64.lt_irrefl _)

theorem canFormCheckpoint_eq (finished : Finished replica) : canFormCheckpoint replica = none := by
  have none : ∀ logIdx logHash, replica.syncMsgs.filter
      (·.isSyncFor replica.round logIdx logHash) = ∅ :=
    fun _ _ => finished.filter_eq_empty (by simp [Replica.inbox]) Message.ofRound_isSyncFor
  simp [canFormCheckpoint, none, Nat.pos_iff_ne_zero.mp finished.fastQuorum]

omit [KvStoreOps S] in
theorem canEnterAlign_eq (finished : Finished replica) : canEnterAlign replica = none := by
  have none : ∀ logIdx, replica.chkptMsgs.filter (·.isCheckpointAt replica.round logIdx) = ∅ :=
    fun _ => finished.filter_eq_empty (by simp [Replica.inbox]) Message.ofRound_isCheckpointAt
  simp [canEnterAlign, none, Nat.pos_iff_ne_zero.mp finished.fPlus1]

theorem canConflictProof_eq (finished : Finished replica) : canConflictProof replica = none := by
  have none : ∀ logIdx, replica.syncMsgs.filter (·.isSyncAt replica.round logIdx) = ∅ :=
    fun _ => finished.filter_eq_empty (by simp [Replica.inbox]) Message.ofRound_isSyncAt
  simp [canConflictProof, none, Nat.pos_iff_ne_zero.mp finished.byzQuorum]

omit [KvStoreOps S] in
theorem canTimeoutProof_eq (finished : Finished replica) : canTimeoutProof replica = none := by
  have none : ∀ logIdx, replica.timeoutMsgs.filter (·.isTimeoutAt replica.round logIdx) = ∅ :=
    fun _ => finished.filter_eq_empty (by simp [Replica.inbox]) Message.ofRound_isTimeoutAt
  simp [canTimeoutProof, none, Nat.pos_iff_ne_zero.mp finished.fPlus1]

/-- All that a SPEC-REPLY can make such a replica do is send a SYNC. -/
theorem specReply (finished : Finished replica) (order : HashOrder) (sender : NodeId)
    (round logIdx : UInt64) (logHash : Hash) :
    ∃ effects, processMessage order replica (.specReply sender round logIdx logHash) =
      some (replica, effects) ∧ Quiet effects := by
  rcases runStages_checkpointStages replica with ⟨effects, forms, quiet⟩
  have same : checkpointed replica = replica := by
    simp [checkpointed, finished.canFormCheckpoint_eq]
  have evidence := runStages_of_undisturbed
    ⟨finished.canEnterAlign_eq, finished.canConflictProof_eq, finished.canTimeoutProof_eq⟩
  have outside : replica.phase.isRepair = false := by simp [finished.phase, Phase.isRepair]
  rw [same] at forms
  rw [processMessage_specReply, runStages_append, frontStages, runStages_append, forms,
    Option.bind_some, evidence, Option.map_some, Option.bind_some, followStages_specReply outside]
  exact ⟨effects, by simp, quiet⟩

/-- A late vote of the finished round is only stored. -/
theorem vote (finished : Finished replica) {view round : UInt64} {msg : Message}
    (isVote : msg.isVoteAt view round = true) (before : round < replica.round)
    (order : HashOrder) :
    ∃ effects, processMessage order replica msg = some (replica.store msg, effects) ∧
      Quiet effects := by
  have consumed : msg.isProof = false := by
    cases msg <;> first | rfl | contradiction
  have past : replica.Left msg := ⟨round, (isVoteAt_cases isVote).1, before⟩
  have inert : Inert replica msg (.specReply "" 0 0 Hash.zero) := inert_of_left consumed past
  obtain ⟨plain, same⟩ := (inert (processMessage order replica msg)).mp ⟨order, rfl⟩
  rcases finished.specReply plain "" 0 0 Hash.zero with ⟨effects, run, quiet⟩
  rw [run] at same
  exact ⟨effects, same.symm, quiet⟩

end Finished

/-- Applying the history finishes the round. -/
theorem finished_of_handleApplyRepair {view round historyHash : UInt64} {replica next : Replica S}
    {effects : List Effect} (collecting : Collecting view round historyHash replica)
    (handled : handleApplyRepair (locked historyHash replica) historyHash =
      some (next, effects)) : Finished next ∧ round < next.round := by
  rcases handleApplyRepair_eq_some handled with ⟨_, later, advanced, _, rfl, _⟩
  have before : round < later := by
    rw [← collecting.sameRound]
    exact lt_of_addU64_one advanced
  constructor
  · exact
      { phase := rfl
        byzQuorum := collecting.byzQuorum
        fastQuorum := collecting.fastQuorum
        fPlus1 := collecting.fPlus1
        left := fun msg stored msgRound inRound =>
          UInt64.lt_of_le_of_lt (collecting.noLater msg stored msgRound inRound) before }
  · exact before

/-! ## One more vote -/

section Steps

variable {view round historyHash : UInt64} {replica : Replica S} {msg : Message}

omit [KvStoreOps S] in
theorem canRepairCommit_mono (msg : Message) (votes : canRepairCommit replica = some historyHash) :
    canRepairCommit (replica.store msg) = some historyHash := by
  rcases canRepairCommit_eq_some_iff.mp votes with ⟨preparing, proposed, quorum⟩
  have sub := (QuietStep.store replica msg).repairPrepareMsgs
  apply canRepairCommit_eq_some_iff.mpr
  simp only [Replica.store_phase, Replica.store_proposedHistoryHash, Replica.store_config,
    Replica.store_view, Replica.store_round]
  exact ⟨preparing, proposed,
    quorum.trans (Finset.card_le_card (Finset.filter_subset_filter _ sub))⟩

omit [KvStoreOps S] in
theorem canApplyRepair_mono (msg : Message)
    (applies : canApplyRepair replica = some historyHash) :
    canApplyRepair (replica.store msg) = some historyHash := by
  rcases canApplyRepair_eq_some_iff.mp applies with ⟨committing, proposed, quorum⟩
  have sub := (QuietStep.store replica msg).repairCommitMsgs
  apply canApplyRepair_eq_some_iff.mpr
  simp only [Replica.store_phase, Replica.store_proposedHistoryHash, Replica.store_config,
    Replica.store_view, Replica.store_round]
  exact ⟨committing, proposed,
    quorum.trans (Finset.card_le_card (Finset.filter_subset_filter _ sub))⟩

omit [KvStoreOps S] in
theorem countP_of_quiet {pattern : Message → Bool} {effects : List Effect}
    (repair : ∀ msg, pattern msg = true → msg.isRepair = true) (quiet : Quiet effects) :
    effects.countP (fun effect => pattern effect.message) = 0 := by
  rw [List.countP_eq_zero]
  intro effect effectMem matched
  have loud := quiet effect effectMem
  rw [repair effect.message matched] at loud
  contradiction

omit [KvStoreOps S] in
theorem Tally.add_of_quiet {tally : Tally S} {effects : List Effect} (quiet : Quiet effects) :
    tally.add (replica, effects) = ⟨replica, tally.commits, tally.dones⟩ := by
  have noCommit : effects.countP (fun effect => effect.message.isRepairCommit) = 0 :=
    countP_of_quiet (fun msg => by cases msg <;> simp [Message.isRepairCommit, Message.isRepair])
      quiet
  have noDone : effects.countP (fun effect => effect.message.isRepairDone) = 0 :=
    countP_of_quiet (fun msg => by cases msg <;> simp [Message.isRepairDone, Message.isRepair])
      quiet
  simp [Tally.add, noCommit, noDone]

/-- The first vote of a batch settles what has been stored before it. -/
theorem deliver_collecting (collecting : Collecting view round historyHash replica)
    (fits : Fits view round historyHash msg) (order : HashOrder) :
    Tally.deliver ⟨replica, 0, 0⟩ (order, msg) = settle historyHash (replica.store msg) := by
  have inside : replica.phase.isRepair = true := by simp [collecting.phase, Phase.isRepair]
  rw [Tally.deliver, processMessage_of_vote fits.1 inside collecting.follower]
  exact map_add_collecting (collecting.store fits) rfl rfl

theorem deliver_prepared (collecting : Collecting view round historyHash replica)
    (fits : Fits view round historyHash msg) (has : HasHistory replica) (order : HashOrder) :
    Tally.deliver ⟨prepared historyHash replica, 0, 0⟩ (order, msg) =
      settlePrepared historyHash (replica.store msg) := by
  have inside : (prepared historyHash replica).phase.isRepair = true := rfl
  have follower : (prepared historyHash replica).isLeader = false := collecting.follower
  rw [Tally.deliver, processMessage_of_vote fits.1 inside follower, prepared_store]
  exact map_add_voting (collecting.store fits) (hasHistory_store msg has) (.inr rfl) rfl rfl

theorem deliver_locked (collecting : Collecting view round historyHash replica)
    (fits : Fits view round historyHash msg) (order : HashOrder) :
    Tally.deliver ⟨locked historyHash replica, 1, 0⟩ (order, msg) =
      settleLocked historyHash (replica.store msg) := by
  have inside : (locked historyHash replica).phase.isRepair = true := rfl
  have follower : (locked historyHash replica).isLeader = false := collecting.follower
  rw [Tally.deliver, processMessage_of_vote fits.1 inside follower, locked_store]
  exact map_add_after_lock (collecting.store fits) rfl rfl

/-- A vote that comes after the history is applied is only stored. -/
theorem deliver_applied (collecting : Collecting view round historyHash replica)
    (fits : Fits view round historyHash msg) (order : HashOrder) :
    (((handleApplyRepair (locked historyHash replica) historyHash).map
      fun ended => (⟨ended.1, 1, 1⟩ : Tally S)).bind fun tally => tally.deliver (order, msg)) =
      (handleApplyRepair (locked historyHash (replica.store msg)) historyHash).map
        fun ended => ⟨ended.1, 1, 1⟩ := by
  have stored := perform_store (locked historyHash replica) msg (.applyRepair historyHash)
  rw [locked_store] at stored
  have stored : handleApplyRepair (locked historyHash (replica.store msg)) historyHash =
    (handleApplyRepair (locked historyHash replica) historyHash).map
      fun ended => (ended.1.store msg, ended.2) := stored
  rw [stored]
  cases handled : handleApplyRepair (locked historyHash replica) historyHash with
  | none => rfl
  | some ended =>
      obtain ⟨finished, before⟩ := finished_of_handleApplyRepair collecting handled
      rcases finished.vote fits.1 before order with ⟨effects, late, quiet⟩
      simp only [Option.map_some, Option.bind_some, Tally.deliver, late, Tally.add_of_quiet quiet]

/-- Each vote moves a follower from where its votes have settled it to where they
settle with the new one. -/
theorem settle_step (collecting : Collecting view round historyHash replica)
    (fits : Fits view round historyHash msg) (order : HashOrder) :
    ((settle historyHash replica).bind fun tally => tally.deliver (order, msg)) =
      settle historyHash (replica.store msg) := by
  by_cases has : HasHistory replica
  · rw [settle, if_pos has, settle, if_pos (hasHistory_store msg has), settlePrepared]
    cases votes : canRepairCommit (prepared historyHash replica) with
    | none => exact deliver_prepared collecting fits has order
    | some voted =>
        have stillVotes := canRepairCommit_mono msg votes
        rw [prepared_store] at stillVotes
        rw [settlePrepared, stillVotes]
        simp only [settleLocked]
        cases applies : canApplyRepair (locked historyHash replica) with
        | none => exact deliver_locked collecting fits order
        | some applied =>
            have stillApplies := canApplyRepair_mono msg applies
            rw [locked_store] at stillApplies
            rw [stillApplies]
            exact deliver_applied collecting fits order
  · rw [settle, if_neg has]
    exact deliver_collecting collecting fits order

/-- A follower sends at most one commit vote and one REPAIR-DONE. -/
theorem once_of_settle {tally : Tally S} (settles : settle historyHash replica = some tally) :
    tally.commits ≤ 1 ∧ tally.dones ≤ 1 := by
  unfold settle settlePrepared settleLocked at settles
  split at settles
  · split at settles
    · cases settles
      simp
    · split at settles
      · cases settles
        simp
      · rcases Option.map_eq_some_iff.mp settles with ⟨ended, _, rfl⟩
        simp
  · cases settles
    simp

end Steps

/-- Delivering votes is collecting them. -/
theorem collects_votes (view round historyHash : UInt64) :
    Collects (Tally.deliver (S := S)) Prod.snd (Fits view round historyHash) Replica.store
      (Collecting view round historyHash) (settle historyHash) where
  comm := store_comm
  keeps _ _ collecting fits := collecting.store fits
  step _ delivery collecting fits := settle_step collecting fits delivery.1

/-! ## Votes commute -/

/-- A follower that is collecting LOGs ends in the same state whatever the order of
the votes of its round, and sends at most one commit vote and one REPAIR-DONE.
The state need not even be reachable. -/
theorem votes_commute {replica : Replica S} {deliveries deliveries' : List (HashOrder × Message)}
    (collecting : replica.phase = .collectingLogs) (follower : replica.isLeader = false)
    (byzQuorum : 1 ≤ replica.config.byzQuorum) (fastQuorum : 1 ≤ replica.config.fastQuorum)
    (fPlus1 : 1 ≤ replica.config.fPlus1)
    (noLater : ∀ msg, replica.Stores msg → ∀ msgRound, msg.inRound = some msgRound →
      msgRound ≤ replica.round)
    (fewDone : (replica.repairDoneMsgs.filter
      (·.isRepairDoneAt replica.view replica.round)).card < replica.config.fPlus1)
    (votes : ∀ delivery ∈ deliveries, delivery.2.isVoteAt replica.view replica.round = true)
    (oneHistory : ∃ historyHash, ∀ sender hist,
      .repairHistory sender replica.view replica.round hist ∈ deliveries.map Prod.snd ∨
          .repairHistory sender replica.view replica.round hist ∈ replica.repairHistoryMsgs →
        hist = historyHash)
    (perm : (deliveries.map Prod.snd).Perm (deliveries'.map Prod.snd)) :
    execute Tally.deliver ⟨replica, 0, 0⟩ deliveries =
        execute Tally.deliver ⟨replica, 0, 0⟩ deliveries' ∧
      ∀ final, execute Tally.deliver ⟨replica, 0, 0⟩ deliveries = some final →
        final.commits ≤ 1 ∧ final.dones ≤ 1 := by
  obtain ⟨historyHash, agrees⟩ := oneHistory
  have starts : Collecting replica.view replica.round historyHash replica :=
    { phase := collecting
      sameView := rfl
      sameRound := rfl
      follower := follower
      byzQuorum := byzQuorum
      fastQuorum := fastQuorum
      fPlus1 := fPlus1
      noLater := noLater
      fewDone := fewDone
      oneHistory := fun sender hist stored => agrees sender hist (.inr stored) }
  have fine : ∀ delivery ∈ deliveries,
      Fits replica.view replica.round historyHash delivery.2 := by
    intro delivery deliveryMem
    constructor
    · exact votes delivery deliveryMem
    · intro sender hist isHistory
      exact agrees sender hist (.inl (isHistory ▸ List.mem_map_of_mem deliveryMem))
  have first : ∀ delivery : HashOrder × Message,
      Fits replica.view replica.round historyHash delivery.2 →
        Tally.deliver ⟨replica, 0, 0⟩ delivery =
          settle historyHash (replica.store delivery.2) :=
    fun delivery fits => deliver_collecting starts fits delivery.1
  have collects := collects_votes (S := S) replica.view replica.round historyHash
  constructor
  · exact collects.execute_eq_of_perm starts fine first perm
  · intro final ends
    by_cases nonempty : deliveries = []
    · subst nonempty
      cases ends
      simp
    · rw [collects.execute_eq starts fine first nonempty] at ends
      exact once_of_settle ends

section Batch

attribute [local instance] plainHasher

/-- A fresh replica that has followed a proof into REPAIR and does not lead view 0. -/
def votingFollower : Replica MemKvStore :=
  { Replica.new (Config.forTest 4 1 0) "r1" MemKvStore.new with
    phase := .collectingLogs
    inRepair := true }

example : (processMessage .greatest (Replica.new (Config.forTest 4 1 0) "r1" MemKvStore.new)
    (.conflictProof 0 0)).map Prod.fst = some votingFollower :=
  rfl

/-- The votes of view 0, first those that need the others. -/
def lateBatch : List (HashOrder × Message) :=
  [(.greatest, .repairCommit "r0" 0 0 1), (.greatest, .repairCommit "r2" 0 0 1),
    (.greatest, .repairCommit "r3" 0 0 1), (.greatest, .repairPrepare "r0" 0 0 1),
    (.greatest, .repairPrepare "r2" 0 0 1), (.greatest, .repairHistory "r0" 0 0 1),
    (.greatest, .repairPrepare "r3" 0 0 1)]

theorem votes_commute_batch :
    (execute Tally.deliver ⟨votingFollower, 0, 0⟩ lateBatch).map
        (fun final => (final.replica.round, final.commits, final.dones)) = some (1, 1, 1) ∧
      execute Tally.deliver ⟨votingFollower, 0, 0⟩ lateBatch =
        execute Tally.deliver ⟨votingFollower, 0, 0⟩ lateBatch.reverse := by
  constructor
  · decide +kernel
  · exact And.left (votes_commute rfl (by decide +kernel) (by decide) (by decide) (by decide)
      (by simp [Replica.Stores, Replica.inbox, votingFollower, Replica.new])
      (by decide +kernel) (by decide)
      ⟨1, by simp [lateBatch, votingFollower, Replica.new]⟩
      ((List.reverse_perm lateBatch).symm.map Prod.snd))

end Batch

end Raspen
