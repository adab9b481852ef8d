import Raspen.Consensus.AppendOnly

/-!
# Catching up and applying

The two exits from REPAIR write the same round and phase.  Applying a history
installs the merged log; catching up keeps the log the replica has, so the two
agree on the log only where that is the merged one already.
-/

namespace Raspen

open KvStoreOps Raspen.Transition

section Exits

variable [EntryHasher]

/-- How the state `caught` after a catch-up compares with the state `applied` after
applying `historyHash` on the same `replica`. -/
structure CatchupAgrees (replica caught applied : Replica MemKvStore) (historyHash : UInt64) :
    Prop where
  round : caught.round = applied.round
  phase : caught.phase = applied.phase
  inRepair : caught.inRepair = applied.inRepair
  proposed : caught.proposedHistoryHash = applied.proposedHistoryHash
  kept : caught.kvSize = replica.kvSize ∧ caught.kvStore = replica.kvStore ∧
    caught.startIdx = replica.kvSize
  sameLog_iff : (caught.startIdx = applied.startIdx ∧ caught.kvSize = applied.kvSize ∧
      ∀ k < applied.kvSize, caught.kvStore.entries[k]? = applied.kvStore.entries[k]?) ↔
    replica.kvSize = historyHash ∧
      ∀ k < historyHash, replica.kvStore.entries[k]? = some (syntheticEntry k)

/-- A history installs its synthetic entries. -/
theorem entries_of_mergedStore {kvStore merged : MemKvStore} {historyHash : UInt64}
    (installed : mergedStore kvStore historyHash = some merged) :
    ∀ k < historyHash, merged.entries[k]? = some (syntheticEntry k) := by
  intro k inside
  have positive : 0 < historyHash := UInt64.lt_of_le_of_lt UInt64.zero_le inside
  rw [mergedStore, if_pos positive] at installed
  rw [getElem?_of_rebuild (ok_of_toOption_eq_some installed),
    if_pos (UInt64.lt_iff_toNat_lt.mp inside)]

/-- The in-memory store installs every history. -/
theorem exists_mergedStore (kvStore : MemKvStore) (historyHash : UInt64) :
    ∃ merged, mergedStore kvStore historyHash = some merged := by
  unfold mergedStore
  split
  · exact ⟨_, rfl⟩
  · exact ⟨_, rfl⟩

theorem CatchupAgrees.of_handlers {replica caught applied : Replica MemKvStore}
    {oldRound historyHash : UInt64} {effects effects' : List Effect}
    (catches : handleRepairDoneCatchup replica oldRound = some (caught, effects))
    (applies : handleApplyRepair replica historyHash = some (applied, effects')) :
    CatchupAgrees replica caught applied historyHash := by
  rcases handleRepairDoneCatchup_eq_some catches with ⟨round, advanced, rfl, _⟩
  rcases handleApplyRepair_eq_some applies with ⟨merged, round', advanced', installed, rfl, _⟩
  have sameRound : round = round' := Option.some.inj (advanced.symm.trans advanced')
  have entries := entries_of_mergedStore installed
  constructor
  · exact sameRound
  · rfl
  · rfl
  · rfl
  · exact ⟨rfl, rfl, rfl⟩
  · constructor
    · rintro ⟨_, sameSize, sameEntries⟩
      refine ⟨sameSize, ?_⟩
      intro k inside
      exact (sameEntries k inside).trans (entries k inside)
    · rintro ⟨sameSize, synthetic⟩
      refine ⟨sameSize, sameSize, ?_⟩
      intro k inside
      exact (synthetic k inside).trans (entries k inside).symm

section Runs

variable {config : Config} {nodeId : NodeId} {history : History MemKvStore}

/-- Wherever a run catches up, applying any history would succeed as well.  The two
exits agree on the round and leave REPAIR alike, and on the log exactly when the
replica holds the merged log already. -/
theorem catchup_agreement (run : LocalRun config nodeId MemKvStore.new history)
    {call : Call MemKvStore} (callMem : call ∈ history.calls) {replica : Replica MemKvStore}
    {oldRound : UInt64} (fires : (replica, .repairDoneCatchup oldRound) ∈ call.cues)
    (historyHash : UInt64) :
    ∃ caught applied effects, handleRepairDoneCatchup replica oldRound = some (caught, []) ∧
      handleApplyRepair replica historyHash = some (applied, effects) ∧
      CatchupAgrees replica caught applied historyHash := by
  have steps := run.step_of_mem_calls callMem
  rw [step_eq_runStages] at steps
  rcases performs_of_fired steps fires with ⟨caught, emitted, performs, _⟩
  have catches : handleRepairDoneCatchup replica oldRound = some (caught, emitted) := performs
  rcases handleRepairDoneCatchup_eq_some catches with ⟨round, advanced, _, rfl⟩
  obtain ⟨merged, installed⟩ := exists_mergedStore replica.kvStore historyHash
  have applies : ∃ outcome, handleApplyRepair replica historyHash = some outcome := by
    simp [handleApplyRepair, installed, advanced]
  obtain ⟨⟨applied, effects⟩, applies⟩ := applies
  exact ⟨caught, applied, effects, catches, applies, .of_handlers catches applies⟩

end Runs

end Exits

/-! ## A replica that catches up with an empty log -/

/-- A REPAIR-DONE for `(view, round)` that carries `hist`. -/
def Message.isRepairDoneFor (view round hist : UInt64) : Message → Bool
  | repairDone _ v r h => v == view && r == round && h == hist
  | _ => false

/-- The replica holds f+1 REPAIR-DONEs and a REPAIR-HISTORY that all carry
`historyHash`. -/
def HoldsOutcome {S : Type} (replica : Replica S) (historyHash : UInt64) : Prop :=
  replica.config.fPlus1 ≤ (replica.repairDoneMsgs.filter
    (·.isRepairDoneFor replica.view replica.round historyHash)).card ∧
    ∃ msg ∈ replica.repairHistoryMsgs,
      historyFor replica.view replica.round msg = some historyHash

instance {S : Type} (replica : Replica S) (historyHash : UInt64) :
    Decidable (HoldsOutcome replica historyHash) :=
  inferInstanceAs (Decidable (_ ∧ _))

section Lagging

attribute [local instance] plainHasher

/-- A replica without entries hears of a history of length 5 and of two replicas
that have applied it. -/
def laggingInputs : List Input :=
  [.message .greatest (.conflictProof 0 0),
    .message .greatest (.repairHistory "r0" 0 0 5),
    .message .greatest (.repairDone "r0" 0 0 5),
    .message .greatest (.repairDone "r2" 0 0 5)]

def laggingHistory : History MemKvStore :=
  (execute History.next (History.start (Config.forTest 4 1 0) "r1" MemKvStore.new)
    laggingInputs).get (by decide +kernel)

theorem localRun_laggingHistory :
    LocalRun (Config.forTest 4 1 0) "r1" MemKvStore.new laggingHistory :=
  reachable_of_execute (Option.some_get _).symm

/-- The replica leaves REPAIR with an empty log, where applying the history leaves
five entries. -/
theorem exists_catchup_laggingHistory :
    ∃ call ∈ laggingHistory.calls, ∃ firing ∈ call.cues, firing.2 = .repairDoneCatchup 0 ∧
      HoldsOutcome firing.1 5 ∧
      (handleRepairDoneCatchup firing.1 0).map (·.1.kvSize) = some 0 ∧
      (handleApplyRepair firing.1 5).map (·.1.kvSize) = some 5 := by
  decide +kernel

theorem catchup_disagrees :
    ¬∀ (config : Config) (nodeId : NodeId) (history : History MemKvStore),
      LocalRun config nodeId MemKvStore.new history →
        ∀ call ∈ history.calls, ∀ replica oldRound,
          (replica, .repairDoneCatchup oldRound) ∈ call.cues →
          ∀ historyHash caught applied effects effects', HoldsOutcome replica historyHash →
            handleRepairDoneCatchup replica oldRound = some (caught, effects) →
            handleApplyRepair replica historyHash = some (applied, effects') →
            caught.round = applied.round ∧ caught.phase = applied.phase ∧
              caught.inRepair = applied.inRepair ∧
              caught.proposedHistoryHash = applied.proposedHistoryHash ∧
              caught.startIdx = applied.startIdx ∧ caught.kvSize = applied.kvSize ∧
              ∀ k < applied.kvSize,
                caught.kvStore.entries[k]? = applied.kvStore.entries[k]? := by
  intro agrees
  rcases exists_catchup_laggingHistory with
    ⟨call, callMem, ⟨replica, cue⟩, fires, rfl, outcome, catches, applies⟩
  rcases Option.map_eq_some_iff.mp catches with ⟨⟨caught, effects⟩, catches, empty⟩
  rcases Option.map_eq_some_iff.mp applies with ⟨⟨applied, effects'⟩, applies, five⟩
  have sameSize := (agrees _ _ _ localRun_laggingHistory call callMem replica 0 fires 5 caught
    applied effects effects' outcome catches applies).2.2.2.2.2.1
  have differs : (0 : UInt64) = 5 := empty.symm.trans (sameSize.trans five)
  exact absurd differs (by decide)

theorem catchup_agreement_lagging :
    ∃ call ∈ laggingHistory.calls, ∃ replica, (replica, .repairDoneCatchup 0) ∈ call.cues ∧
      ∃ caught applied effects, handleRepairDoneCatchup replica 0 = some (caught, []) ∧
        handleApplyRepair replica 5 = some (applied, effects) ∧
        CatchupAgrees replica caught applied 5 := by
  rcases exists_catchup_laggingHistory with ⟨call, callMem, ⟨replica, cue⟩, fires, rfl, _⟩
  exact ⟨call, callMem, replica, fires,
    catchup_agreement localRun_laggingHistory callMem fires 5⟩

end Lagging

/-! ## The evidence for catching up -/

/-- The senders of the REPAIR-DONEs for the replica's view and round. -/
def Replica.doneSenders {S : Type} (replica : Replica S) : Finset NodeId :=
  senders (Message.isRepairDoneAt replica.view replica.round) replica.repairDoneMsgs

/-- No sender has two REPAIR-DONEs stored for the replica's view and round. -/
def Replica.DonesOnce {S : Type} (replica : Replica S) : Prop :=
  OnePerSender (Message.isRepairDoneAt replica.view replica.round) replica.repairDoneMsgs

instance {S : Type} (replica : Replica S) : Decidable replica.DonesOnce :=
  inferInstanceAs (Decidable (OnePerSender _ _))

theorem Message.exists_sender_of_isRepairDoneAt {view round : UInt64} {msg : Message}
    (matched : msg.isRepairDoneAt view round = true) : ∃ node, msg.sender = some node := by
  cases msg <;> simp_all [Message.isRepairDoneAt, Message.sender]

section Evidence

variable {S : Type} [KvStoreOps S] {config : Config} {nodeId : NodeId} {kvStore : S}
  {history : History S}

/-- A replica catches up on a stored REPAIR-HISTORY and, where each sender counts once,
on REPAIR-DONEs of f+1 senders, one of them outside any smaller set.  Their hashes are
not compared. -/
theorem catchup_evidence (run : LocalRun config nodeId kvStore history) {call : Call S}
    (callMem : call ∈ history.calls) {replica : Replica S} {oldRound : UInt64}
    (fires : (replica, .repairDoneCatchup oldRound) ∈ call.cues) :
    replica.phase.isRepair = true ∧
      (∃ sender historyHash, .repairHistory sender replica.view replica.round historyHash ∈
        replica.repairHistoryMsgs) ∧
      (replica.DonesOnce → config.fPlus1 ≤ replica.doneSenders.card ∧
        ∀ faulty : Finset NodeId, faulty.card < config.fPlus1 →
          ∃ sender ∈ replica.doneSenders, sender ∉ faulty) := by
  have config_eq := config_of_visits run (.inr ⟨call, callMem, _, fires⟩)
  have guard : canRepairDoneCatchup replica = some oldRound := Call.guard_of_mem_cues fires
  obtain ⟨inside, counted, ⟨msg, msgMem⟩, _⟩ := canRepairDoneCatchup_eq_some_iff.mp guard
  obtain ⟨stored, matched⟩ := Finset.mem_filter.mp msgMem
  obtain ⟨sender, historyHash, rfl⟩ := Message.isRepairHistoryAt_iff.mp matched
  constructor
  · rcases inside with phase | phase | phase <;> simp [phase, Phase.isRepair]
  · constructor
    · exact ⟨sender, historyHash, stored⟩
    · intro once
      rw [← config_eq]
      exact once.senders_of_count (fun _ => Message.exists_sender_of_isRepairDoneAt) counted

end Evidence

section Mixed

attribute [local instance] plainHasher

/-- Two replicas report two outcomes, of which neither is the proposed one. -/
def mixedInputs : List Input :=
  [.message .greatest (.conflictProof 0 0),
    .message .greatest (.repairHistory "r0" 0 0 3),
    .message .greatest (.repairDone "r0" 0 0 1),
    .message .greatest (.repairDone "r2" 0 0 2)]

def mixedHistory : History MemKvStore :=
  (execute History.next (History.start (Config.forTest 4 1 0) "r1" MemKvStore.new)
    mixedInputs).get (by decide +kernel)

theorem localRun_mixedHistory :
    LocalRun (Config.forTest 4 1 0) "r1" MemKvStore.new mixedHistory :=
  reachable_of_execute (Option.some_get _).symm

/-- Neither outcome has f+1 senders, nor is it the proposed one. -/
theorem catchup_on_mixed_hashes :
    ¬∀ history : History MemKvStore,
      LocalRun (Config.forTest 4 1 0) "r1" MemKvStore.new history →
      ∀ call ∈ history.calls, ∀ replica oldRound,
        (replica, .repairDoneCatchup oldRound) ∈ call.cues →
        ∃ historyHash, replica.config.fPlus1 ≤
          (senders (Message.isRepairDoneFor replica.view replica.round historyHash)
            replica.repairDoneMsgs).card ∧
          ∃ sender, .repairHistory sender replica.view replica.round historyHash ∈
            replica.repairHistoryMsgs := by
  intro sound
  have mixed : ∃ call ∈ mixedHistory.calls, ∃ firing ∈ call.cues,
      firing.2 = .repairDoneCatchup 0 ∧ firing.1.config.fPlus1 = 2 ∧ firing.1.view = 0 ∧
      firing.1.round = 0 ∧
      (senders (Message.isRepairDoneFor 0 0 3) firing.1.repairDoneMsgs).card = 0 ∧
      ∀ msg ∈ firing.1.repairHistoryMsgs, msg = .repairHistory "r0" 0 0 3 := by
    decide +kernel
  rcases mixed with
    ⟨call, callMem, ⟨replica, cue⟩, fires, rfl, bound, view_eq, round_eq, none, proposed⟩
  rcases sound mixedHistory localRun_mixedHistory call callMem replica 0 fires with
    ⟨historyHash, quorum, sender, stored⟩
  rw [bound, view_eq, round_eq] at quorum
  rw [view_eq, round_eq] at stored
  cases proposed _ stored
  rw [none] at quorum
  contradiction

theorem catchup_evidence_mixed :
    ∃ call ∈ mixedHistory.calls, ∃ firing ∈ call.cues, firing.2 = .repairDoneCatchup 0 ∧
      (Config.forTest 4 1 0).fPlus1 ≤ firing.1.doneSenders.card := by
  have caught : ∃ call ∈ mixedHistory.calls, ∃ firing ∈ call.cues,
      firing.2 = .repairDoneCatchup 0 ∧ firing.1.DonesOnce := by
    decide +kernel
  rcases caught with ⟨call, callMem, ⟨replica, cue⟩, fires, rfl, once⟩
  have evidence := catchup_evidence localRun_mixedHistory callMem fires
  exact ⟨call, callMem, _, fires, rfl, (evidence.2.2 once).1⟩

end Mixed

end Raspen
