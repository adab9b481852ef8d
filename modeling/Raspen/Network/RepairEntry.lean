import Raspen.Consensus.Applied
import Raspen.Consensus.ProofRelay
import Raspen.Network.Core

/-!
# Evidence behind an entry to REPAIR

A replica enters REPAIR on its own conflict proof, on f+1 stored TIMEOUTs, or on
any proof message.  The first two rest on evidence that leads to a correct
replica.  The third checks neither the round nor the origin of the proof, and
rests on evidence where a correct replica has emitted the proof in that round.
-/

namespace Raspen

open Raspen.Transition Raspen.Quorum Raspen.Network

/-- A fast cluster whose third threshold is f+1. -/
structure FullCluster extends FastCluster where
  fPlus1_eq : config.fPlus1 = config.f + 1

variable {S : Type} [KvStoreOps S]

/-! ## Entries and their evidence -/

/-- Some handler of the call set `in_repair` while in `round`. -/
def Call.EntersIn (call : Call S) (round : UInt64) : Prop :=
  ∃ firing ∈ call.cues, firing.1.round = round ∧ firing.1.inRepair = false ∧
    ∃ outcome ∈ perform firing.1 firing.2, outcome.1.inRepair = true

instance (call : Call S) (round : UInt64) : Decidable (call.EntersIn round) :=
  inferInstanceAs (Decidable (∃ firing ∈ call.cues, _))

/-- A correct replica broadcast a TIMEOUT in `round` when its own timer
expired. -/
def TimedOut (cluster : Cluster) (network : Network S) (round : UInt64) : Prop :=
  ∃ node ∈ cluster.correct, ∃ call ∈ (network node).calls, ∃ logIdx,
    call.input = .event (.chkptTimeout logIdx) ∧
      .broadcast (.timeoutMsg node round logIdx) ∈ call.effects

/-- A correct replica could prove a conflict in `round`. -/
def Conflicting (cluster : Cluster) (network : Network S) (round : UInt64) : Prop :=
  ∃ node ∈ cluster.correct, ∃ call ∈ (network node).calls, ∃ firing ∈ call.cues,
    firing.1.round = round ∧ canConflictProof firing.1 ≠ none

/-- A TIMEOUT-PROOF or CONFLICT-PROOF of `round`. -/
def Message.isProofOf (round : UInt64) : Message → Bool
  | timeoutProof r _ | conflictProof r _ => r == round
  | _ => false

/-- Correct replicas enter REPAIR only on proofs of their own round that some
correct replica has broadcast. -/
def GenuineProofs (cluster : Cluster) (network : Network S) : Prop :=
  ∀ node ∈ cluster.correct, ∀ call ∈ (network node).calls, ∀ firing ∈ call.cues,
    firing.2 = .enterRepair firing.1.round →
      ∃ source ∈ cluster.correct, ∃ proof ∈ (network source).messages,
        call.input.delivered = some proof ∧ proof.isProofOf firing.1.round = true

instance (cluster : Cluster) (network : Network S) :
    Decidable (GenuineProofs cluster network) :=
  inferInstanceAs (Decidable (∀ node ∈ cluster.correct, _))

omit [KvStoreOps S] in
/-- The third entry reports the round of the replica, whatever the proof says. -/
theorem round_of_canEnterRepair {replica : Replica S} {msg : Message} {round : UInt64}
    (guard : canEnterRepair replica msg = some round) : round = replica.round := by
  unfold canEnterRepair at guard
  split at guard
  · contradiction
  · cases msg <;> simp_all

/-- The three handlers that enter REPAIR. -/
theorem entry_cases {replica next : Replica S} {cue : Cue} {effects : List Effect}
    (performs : perform replica cue = some (next, effects)) (outside : replica.inRepair = false)
    (inside : next.inRepair = true) :
    (∃ logIdx, cue = .conflictProof logIdx) ∨ (∃ logIdx, cue = .timeoutProof logIdx) ∨
      ∃ round, cue = .enterRepair round := by
  have enters := entersRepair_of_perform performs outside inside
  cases cue with
  | conflictProof logIdx => exact .inl ⟨logIdx, rfl⟩
  | timeoutProof logIdx => exact .inr (.inl ⟨logIdx, rfl⟩)
  | enterRepair round => exact .inr (.inr ⟨round, rfl⟩)
  | _ => contradiction

/-! ## Evidence of a single replica -/

section Local

variable {config : Config} {nodeId : NodeId} {kvStore : S} {history : History S}

/-- The TIMEOUTs behind a timeout proof stay stored. -/
theorem timeouts_of_timeoutProof (run : LocalRun config nodeId kvStore history) {call : Call S}
    (callMem : call ∈ history.calls) {firing : Replica S × Cue} (fires : firing ∈ call.cues)
    {logIdx : UInt64} (isProof : firing.2 = .timeoutProof logIdx) :
    config.fPlus1 ≤ (senders (Message.isTimeoutAt firing.1.round logIdx)
      history.replica.timeoutMsgs).card := by
  have backed := run.fired_invariant
    (P := fun replica trace => ∀ earlier ∈ trace, ∀ logIdx, earlier.2 = .timeoutProof logIdx →
      earlier.1.config.fPlus1 ≤
        (senders (Message.isTimeoutAt earlier.1.round logIdx) replica.timeoutMsgs).card)
    (fun _ _ => True) (fun _ _ _ _ => trivial) (by simp) ?_ ?_
  · rw [← config_of_visits run (.inr ⟨call, callMem, _, fires⟩)]
    exact backed firing (List.mem_flatMap.mpr ⟨call, callMem, fires⟩) logIdx isProof
  · intro replica trace msg past earlier earlierMem logIdx isProof
    have grows : replica.timeoutMsgs ⊆ (replica.store msg).timeoutMsgs := by
      cases msg <;> simp [Replica.store, Finset.subset_insert]
    exact (past earlier earlierMem logIdx isProof).trans (Finset.card_le_card (senders_mono grows))
  · intro input replica cue next effects trace past _ guard performs earlier earlierMem logIdx
      isProof
    have inbox_eq := inbox_of_perform performs
    simp only [Replica.inbox, List.cons.injEq] at inbox_eq
    rw [inbox_eq.2.2.2.1]
    rcases List.mem_append.mp earlierMem with old | new
    · exact past earlier old logIdx isProof
    · rw [List.mem_singleton.mp new] at isProof ⊢
      cases isProof
      rw [card_timeoutSenders]
      exact (canTimeoutProof_eq_some_iff.mp guard).2.2.2.2

/-- A replica broadcasts a TIMEOUT only when its own timer expires. -/
theorem timer_of_timeoutMsg (run : LocalRun config nodeId kvStore history)
    {sender : NodeId} {round logIdx : UInt64}
    (emitted : .timeoutMsg sender round logIdx ∈ history.messages) :
    ∃ call ∈ history.calls, call.input = .event (.chkptTimeout logIdx) ∧
      .broadcast (.timeoutMsg sender round logIdx) ∈ call.effects := by
  rcases run.exists_firing_of_mem_messages emitted with
    ⟨call, callMem, ⟨replica, cue⟩, fires, next, effects, performs, effect, emits, inCall, isMsg⟩
  have kind := emits_of_perform performs effect emits
  rw [isMsg] at kind
  cases cue with
  | chkptTimeout logIdx' =>
      rcases Call.guard_of_mem_cues fires with ⟨timer, isTimer, guard⟩
      rw [(canChkptTimeout_eq_some_iff.mp guard).2.2] at isTimer
      cases performs
      rw [List.mem_singleton.mp emits] at isMsg inCall
      cases isMsg
      exact ⟨call, callMem, isTimer, inCall⟩
  | _ => contradiction

/-- A replica that broadcasts a CONFLICT-PROOF could prove the conflict. -/
theorem guard_of_conflictProof (run : LocalRun config nodeId kvStore history)
    {round logIdx : UInt64} (emitted : .conflictProof round logIdx ∈ history.messages) :
    ∃ call ∈ history.calls, ∃ firing ∈ call.cues,
      firing.1.round = round ∧ canConflictProof firing.1 ≠ none := by
  rcases run.exists_firing_of_mem_messages emitted with
    ⟨call, callMem, ⟨replica, cue⟩, fires, next, effects, performs, effect, emits, _, isMsg⟩
  have kind := emits_of_perform performs effect emits
  rw [isMsg] at kind
  cases cue with
  | conflictProof logIdx' =>
      have guard : canConflictProof replica = some logIdx' := Call.guard_of_mem_cues fires
      cases performs
      refine ⟨call, callMem, _, fires, ?_, Option.ne_none_iff_exists'.mpr ⟨logIdx', guard⟩⟩
      rcases List.mem_cons.mp emits with rfl | logMem
      · cases isMsg
        rfl
      · rw [List.mem_singleton.mp logMem] at isMsg
        contradiction
  | _ => contradiction

/-- A replica that broadcasts a TIMEOUT-PROOF has stored f+1 TIMEOUTs. -/
theorem timeouts_of_emitted_proof (run : LocalRun config nodeId kvStore history)
    {round logIdx : UInt64} (emitted : .timeoutProof round logIdx ∈ history.messages) :
    config.fPlus1 ≤
      (senders (Message.isTimeoutAt round logIdx) history.replica.timeoutMsgs).card := by
  rcases run.exists_firing_of_mem_messages emitted with
    ⟨call, callMem, ⟨replica, cue⟩, fires, next, effects, performs, effect, emits, _, isMsg⟩
  have kind := emits_of_perform performs effect emits
  rw [isMsg] at kind
  cases cue with
  | timeoutProof logIdx' =>
      have backed := timeouts_of_timeoutProof run callMem fires rfl
      cases performs
      rcases List.mem_cons.mp emits with rfl | logMem
      · cases isMsg
        exact backed
      · rw [List.mem_singleton.mp logMem] at isMsg
        contradiction
  | _ => contradiction

end Local

/-! ## Evidence in the cluster -/

variable {cluster : FullCluster} {stores : NodeId → S} {network : Network S}

/-- Among f+1 stored TIMEOUTs is one of a correct replica, whose timer had
expired. -/
theorem timedOut_of_timeouts (run : Run cluster.toCluster stores network) (node : NodeId)
    {round logIdx : UInt64} (quorum : cluster.config.fPlus1 ≤
      (senders (Message.isTimeoutAt round logIdx) (network node).replica.timeoutMsgs).card) :
    TimedOut cluster.toCluster network round := by
  have authentic : ∀ sender ∈ senders (Message.isTimeoutAt round logIdx)
      (network node).replica.timeoutMsgs, Authentic cluster.toCluster network
        (.timeoutMsg sender round logIdx) := by
    intro sender senderMem
    rcases mem_senders_iff.mp senderMem with ⟨msg, stored, matched, isSender⟩
    obtain ⟨sender', rfl⟩ := Message.isTimeoutAt_iff.mp matched
    cases isSender
    apply run.authentic_of_stores node
    exact ⟨_, by simp [Replica.inbox], stored⟩
  have many : cluster.config.f < (senders (Message.isTimeoutAt round logIdx)
      (network node).replica.timeoutMsgs).card := by
    rw [cluster.fPlus1_eq] at quorum
    exact quorum
  have members : senders (Message.isTimeoutAt round logIdx)
      (network node).replica.timeoutMsgs ⊆ cluster.faultModel.members :=
    fun sender senderMem => (authentic sender senderMem sender rfl).1
  rcases FaultModel.exists_correct_mem members many with ⟨source, correct, senderMem⟩
  have emitted := (authentic source senderMem source rfl).2 correct
  rcases timer_of_timeoutMsg (run.localRun source) emitted with ⟨call, callMem, isTimer, inCall⟩
  exact ⟨source, correct, call, callMem, logIdx, isTimer, inCall⟩

/-- Behind every proof that a correct replica has broadcast there is evidence of
its round. -/
theorem evidence_of_emitted_proof (run : Run cluster.toCluster stores network) {source : NodeId}
    (correct : source ∈ cluster.correct) {proof : Message} {round : UInt64}
    (emitted : proof ∈ (network source).messages) (isProof : proof.isProofOf round = true) :
    TimedOut cluster.toCluster network round ∨ Conflicting cluster.toCluster network round := by
  cases proof with
  | timeoutProof r logIdx =>
      left
      cases eq_of_beq isProof
      exact timedOut_of_timeouts run source
        (timeouts_of_emitted_proof (run.localRun source) emitted)
  | conflictProof r logIdx =>
      right
      cases eq_of_beq isProof
      exact ⟨source, correct, guard_of_conflictProof (run.localRun source) emitted⟩
  | _ => contradiction

/-- When correct replicas follow genuine proofs only, every entry to REPAIR rests
on evidence of its round. -/
theorem repair_entry_evidence (run : Run cluster.toCluster stores network)
    (genuine : GenuineProofs cluster.toCluster network) {node : NodeId}
    (correct : node ∈ cluster.correct) {call : Call S} (callMem : call ∈ (network node).calls)
    {round : UInt64} (enters : call.EntersIn round) :
    TimedOut cluster.toCluster network round ∨ Conflicting cluster.toCluster network round := by
  rcases enters with ⟨⟨replica, cue⟩, fires, rfl, outside, ⟨next, effects⟩, performs, inside⟩
  rcases entry_cases performs outside inside with ⟨logIdx, rfl⟩ | ⟨logIdx, rfl⟩ | ⟨old, rfl⟩
  · right
    have guard : canConflictProof replica = some logIdx := Call.guard_of_mem_cues fires
    exact ⟨node, correct, call, callMem, _, fires, rfl,
      Option.ne_none_iff_exists'.mpr ⟨logIdx, guard⟩⟩
  · left
    exact timedOut_of_timeouts run node
      (timeouts_of_timeoutProof (run.localRun node) callMem fires rfl)
  · have same : old = replica.round := by
      rcases Call.guard_of_mem_cues fires with ⟨_, msg, _, guard⟩
      exact round_of_canEnterRepair guard
    rw [same] at fires
    rcases genuine node correct call callMem _ fires rfl with
      ⟨source, sourceCorrect, proof, emitted, _, isProof⟩
    exact evidence_of_emitted_proof run sourceCorrect emitted isProof

section FourNodes

attribute [local instance] plainHasher

/-- Four replicas with the thresholds of the protocol. -/
def fullFourNodes : FullCluster where
  toFastCluster := fastFourNodes
  fPlus1_eq := rfl

/-- Anyone sends a proof to a replica that has done nothing yet. -/
def forgedNetwork : Network MemKvStore :=
  (execute (Network.next fourNodes) (Network.start fourNodes fun _ => MemKvStore.new)
    [deliver (.conflictProof 0 0) "r1"]).get (by decide +kernel)

theorem run_forgedNetwork : Run fourNodes (fun _ => MemKvStore.new) forgedNetwork :=
  reachable_of_execute (Option.some_get _).symm

/-- No timer has expired, and no replica could prove a conflict. -/
theorem no_evidence_forgedNetwork :
    ¬(TimedOut fourNodes forgedNetwork 0 ∨ Conflicting fourNodes forgedNetwork 0) := by
  have quiet : ∀ node ∈ fourNodes.correct, ∀ call ∈ (forgedNetwork node).calls,
      call.input.delivered ≠ none ∧ ∀ firing ∈ call.cues, canConflictProof firing.1 = none := by
    decide +kernel
  rintro (⟨node, correct, call, callMem, _, isTimer, _⟩ |
    ⟨node, correct, call, callMem, firing, fires, _, guard⟩)
  · apply (quiet node correct call callMem).1
    rw [isTimer]
    rfl
  · exact guard ((quiet node correct call callMem).2 firing fires)

theorem repair_entry_forged :
    ¬∀ (cluster : FullCluster) (network : Network MemKvStore),
      Run cluster.toCluster (fun _ => MemKvStore.new) network → ∀ node ∈ cluster.correct,
        ∀ call ∈ (network node).calls, ∀ round, call.EntersIn round →
          TimedOut cluster.toCluster network round ∨
            Conflicting cluster.toCluster network round := by
  intro holds
  have entered : ∃ node ∈ fourNodes.correct, ∃ call ∈ (forgedNetwork node).calls,
      call.EntersIn 0 := by
    decide +kernel
  rcases entered with ⟨node, correct, call, callMem, enters⟩
  exact no_evidence_forgedNetwork
    (holds fullFourNodes forgedNetwork run_forgedNetwork node correct call callMem 0 enters)

/-- Two timers expire, their TIMEOUTs make a proof, and a third replica follows
it. -/
def timeoutActions : List (NodeId × Input) :=
  ["r1", "r2"].map (deliver (.speculate "seq" 0 Hash.zero 0)) ++
    ["r1", "r2"].map (fun node => (node, .event (.chkptTimeout 0))) ++
    [deliver (.timeoutMsg "r1" 0 0) "r1", deliver (.timeoutMsg "r2" 0 0) "r1",
      deliver (.timeoutProof 0 0) "r3"]

def timeoutNetwork : Network MemKvStore :=
  (execute (Network.next fourNodes) (Network.start fourNodes fun _ => MemKvStore.new)
    timeoutActions).get (by decide +kernel)

theorem run_timeoutNetwork : Run fourNodes (fun _ => MemKvStore.new) timeoutNetwork :=
  reachable_of_execute (Option.some_get _).symm

theorem repair_entry_timeout :
    TimedOut fourNodes timeoutNetwork 0 ∨ Conflicting fourNodes timeoutNetwork 0 := by
  have entered : ∃ call ∈ (timeoutNetwork "r3").calls, call.EntersIn 0 := by
    decide +kernel
  rcases entered with ⟨call, callMem, enters⟩
  have run : Run fullFourNodes.toCluster (fun _ => MemKvStore.new) timeoutNetwork :=
    run_timeoutNetwork
  exact repair_entry_evidence run (by decide +kernel) (by decide) callMem enters

end FourNodes

end Raspen
