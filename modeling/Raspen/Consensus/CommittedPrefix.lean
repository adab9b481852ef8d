import Raspen.Consensus.Applied
import Raspen.Consensus.Rounds

/-!
# The committed prefix

A checkpoint is recorded by a SYNC quorum or by state transfer.  Two handlers can
lose it again: state transfer takes the index of any sender's reply, and an
agreed history replaces the log without a look at the checkpoint.
-/

namespace Raspen

open Raspen.Transition

variable {S : Type}

/-! ## What a handler writes -/

/-- The handlers that record a checkpoint. -/
def Cue.records : Cue → Bool
  | .formCheckpoint _ | .stateReply _ => true
  | _ => false

/-- The handlers that write the log. -/
def Cue.writesLog : Cue → Bool
  | .speculate _ | .stateReply _ | .applyRepair _ => true
  | _ => false

section Perform

variable [KvStoreOps S] {replica next : Replica S} {cue : Cue} {effects : List Effect}

/-- The other handlers leave the checkpoint as it is. -/
theorem checkpoint_of_perform (keeps : cue.records = false)
    (performs : perform replica cue = some (next, effects)) :
    next.chkptIdx = replica.chkptIdx ∧ next.chkptHash = replica.chkptHash := by
  cases cue with
  | speculate logIdx =>
      rcases handleSpeculate_eq_some performs with ⟨_, _, _, _, _, _, rfl, _⟩
      exact ⟨rfl, rfl⟩
  | formCheckpoint | stateReply => contradiction
  | applyRepair historyHash =>
      rcases handleApplyRepair_eq_some performs with ⟨_, _, _, _, rfl, _⟩
      exact ⟨rfl, rfl⟩
  | repairDoneCatchup round =>
      rcases perform_repairDoneCatchup_eq_some performs with ⟨_, _, rfl, _⟩
      exact ⟨rfl, rfl⟩
  | viewChange newView =>
      rcases perform_viewChange_eq_some performs with ⟨view, _, rfl, _⟩
      exact ⟨rfl, rfl⟩
  | _ =>
      cases performs
      exact ⟨rfl, rfl⟩

theorem chkptIdx_of_perform (keeps : cue.records = false)
    (performs : perform replica cue = some (next, effects)) :
    next.chkptIdx = replica.chkptIdx :=
  (checkpoint_of_perform keeps performs).1

theorem log_of_perform (keeps : cue.writesLog = false)
    (performs : perform replica cue = some (next, effects)) :
    next.kvSize = replica.kvSize ∧ next.kvStore = replica.kvStore := by
  cases cue with
  | speculate | stateReply | applyRepair => contradiction
  | repairDoneCatchup round =>
      rcases perform_repairDoneCatchup_eq_some performs with ⟨_, _, rfl, _⟩
      exact ⟨rfl, rfl⟩
  | viewChange newView =>
      rcases perform_viewChange_eq_some performs with ⟨view, _, rfl, _⟩
      exact ⟨rfl, rfl⟩
  | _ =>
      cases performs
      exact ⟨rfl, rfl⟩

/-- After the place of state transfer no handler records a checkpoint. -/
theorem records_of_later (later : 8 < cue.place) : cue.records = false := by
  cases cue with
  | formCheckpoint | stateReply => simp [Cue.place] at later
  | _ => rfl

end Perform

/-! ## What a call leaves behind -/

section Calls

variable [KvStoreOps S] {call : Call S} {replica : Replica S}

/-- The index that state transfer takes is the checkpoint index after the call. -/
theorem chkptIdx_of_stateReply
    (steps : step call.pre call.input = some (call.post, call.effects)) {chkptIdx : UInt64}
    (fires : (replica, .stateReply chkptIdx) ∈ call.cues) : call.post.chkptIdx = chkptIdx := by
  rw [step_eq_runStages] at steps
  apply holds_after_fired (P := fun state : Replica S => state.chkptIdx = chkptIdx)
    (pairwise_stages call.input) steps fires
  · intro next emitted performs
    rcases handleStateReply_eq_some performs with ⟨_, _, _, _, rfl, _⟩
    rfl
  · apply preserves_stages
    · intro state msg _ same
      simpa using same
    · intro state cue next emitted same later _ performs
      exact (chkptIdx_of_perform (records_of_later later) performs).trans same

/-- A call that applies a history keeps the checkpoint recorded before. -/
theorem chkptIdx_of_applyRepair
    (steps : step call.pre call.input = some (call.post, call.effects)) {historyHash : UInt64}
    (fires : (replica, .applyRepair historyHash) ∈ call.cues) :
    call.post.chkptIdx = replica.chkptIdx := by
  rw [step_eq_runStages] at steps
  apply holds_after_fired (P := fun state : Replica S => state.chkptIdx = replica.chkptIdx)
    (pairwise_stages call.input) steps fires
  · intro next emitted performs
    exact chkptIdx_of_perform rfl performs
  · apply preserves_stages
    · intro state msg _ same
      simpa using same
    · intro state cue next emitted same later _ performs
      have afterTransfer : 8 < cue.place := Nat.lt_trans (show 8 < 12 by decide) later
      exact (chkptIdx_of_perform (records_of_later afterTransfer) performs).trans same

end Calls

/-! ## The prefix along a run -/

/-- Some of the fired cues recorded a checkpoint. -/
def Recorded (firings : List (Replica S × Cue)) : Prop :=
  ∃ firing ∈ firings, firing.2.records = true

instance (firings : List (Replica S × Cue)) : Decidable (Recorded firings) :=
  inferInstanceAs (Decidable (∃ firing ∈ firings, _))

variable [KvStoreOps S]

/-- What a call that comes after the calls `earlier` owes the committed prefix. -/
structure KeepsPrefix (earlier : List (Call S)) (call : Call S) : Prop where
  monotone : call.pre.chkptIdx ≤ call.post.chkptIdx
  inside : Recorded (earlier.flatMap Call.cues ++ call.cues) →
    call.post.chkptIdx < call.post.kvSize

/-- State transfer takes no older checkpoint, and an applied history is longer
than the checkpoint it is applied under. -/
structure RespectsCheckpoint (earlier : List (Call S)) (call : Call S) : Prop where
  stateReply : ∀ replica chkptIdx, (replica, .stateReply chkptIdx) ∈ call.cues →
    call.pre.chkptIdx ≤ chkptIdx
  applyRepair : Recorded (earlier.flatMap Call.cues ++ call.cues) →
    ∀ replica historyHash, (replica, .applyRepair historyHash) ∈ call.cues →
      replica.chkptIdx < historyHash

theorem RespectsCheckpoint.of_keepsPrefix {earlier : List (Call S)} {call : Call S}
    (steps : step call.pre call.input = some (call.post, call.effects))
    (keeps : KeepsPrefix earlier call) : RespectsCheckpoint earlier call where
  stateReply replica chkptIdx fires := by
    rw [← chkptIdx_of_stateReply steps fires]
    exact keeps.monotone
  applyRepair recorded replica historyHash fires := by
    rw [← chkptIdx_of_applyRepair steps fires, ← (applied_of_mem_cues steps fires).kvSize]
    exact keeps.inside recorded

/-- The state of the committed prefix after the cues `trace`. -/
structure PrefixKept (start : UInt64) (replica : Replica S) (trace : List (Replica S × Cue)) :
    Prop where
  above : start ≤ replica.chkptIdx
  inside : Recorded trace → replica.chkptIdx < replica.kvSize
  fresh : ¬Recorded trace → replica.chkptIdx = 0

omit [KvStoreOps S] in
theorem recorded_append {trace : List (Replica S × Cue)} {replica : Replica S} {cue : Cue} :
    Recorded (trace ++ [(replica, cue)]) ↔ Recorded trace ∨ cue.records = true := by
  simp only [Recorded, List.mem_append, List.mem_singleton]
  constructor
  · rintro ⟨firing, old | rfl, records⟩
    · exact .inl ⟨firing, old, records⟩
    · exact .inr records
  · rintro (⟨firing, old, records⟩ | records)
    · exact ⟨firing, .inl old, records⟩
    · exact ⟨_, .inr rfl, records⟩

namespace PrefixKept

variable {start : UInt64} {replica next : Replica S} {trace : List (Replica S × Cue)}

omit [KvStoreOps S] in
/-- A handler that records nothing keeps the prefix if the log does not shrink
below it. -/
theorem of_keeps (committed : PrefixKept start replica trace) {cue : Cue}
    (noRecord : cue.records = false) (same : next.chkptIdx = replica.chkptIdx)
    (covers : Recorded trace → next.chkptIdx < next.kvSize) :
    PrefixKept start next (trace ++ [(replica, cue)]) := by
  have recorded_iff : Recorded (trace ++ [(replica, cue)]) ↔ Recorded trace := by
    rw [recorded_append, noRecord]
    simp
  constructor
  · rw [same]
    exact committed.above
  · rw [recorded_iff]
    exact covers
  · rw [recorded_iff, same]
    exact committed.fresh

omit [KvStoreOps S] in
/-- A handler that records a checkpoint inside the log extends the prefix. -/
theorem of_records {cue : Cue} (records : cue.records = true) (above : start ≤ next.chkptIdx)
    (inside : next.chkptIdx < next.kvSize) :
    PrefixKept start next (trace ++ [(replica, cue)]) := by
  have recorded : Recorded (trace ++ [(replica, cue)]) := recorded_append.mpr (.inr records)
  exact ⟨above, fun _ => inside, fun unrecorded => absurd recorded unrecorded⟩

/-- Every handler keeps the prefix, as long as transferred checkpoints are not
older and applied histories not shorter. -/
theorem of_perform {input : Input} {cue : Cue} {effects : List Effect}
    (committed : PrefixKept start replica trace) (guard : Guard input replica cue)
    (performs : perform replica cue = some (next, effects))
    (transfer : ∀ chkptIdx, cue = .stateReply chkptIdx → start ≤ chkptIdx)
    (apply : ∀ historyHash, cue = .applyRepair historyHash → Recorded trace →
      replica.chkptIdx < historyHash) :
    PrefixKept start next (trace ++ [(replica, cue)]) := by
  cases cue with
  | speculate logIdx =>
      apply committed.of_keeps rfl (chkptIdx_of_perform rfl performs)
      rcases handleSpeculate_eq_some performs with ⟨_, kvSize, _, _, _, grown, rfl, _⟩
      intro recorded
      exact UInt64.lt_trans (committed.inside recorded) (lt_of_addU64_one grown)
  | formCheckpoint logIdx =>
      rcases canFormCheckpoint_eq_some_iff.mp guard with ⟨_, filled, rfl, _⟩
      cases performs
      obtain ⟨positive, predecessor⟩ := toNat_sub_one (UInt64.pos_iff_ne_zero.mpr filled)
      have old : replica.chkptIdx ≤ replica.kvSize - 1 := by
        rw [UInt64.le_iff_toNat_le, predecessor]
        by_cases recorded : Recorded trace
        · have below := UInt64.lt_iff_toNat_lt.mp (committed.inside recorded)
          omega
        · simp [committed.fresh recorded]
      apply of_records rfl (UInt64.le_trans committed.above old)
      rw [UInt64.lt_iff_toNat_lt]
      simp only [predecessor]
      omega
  | stateReply chkptIdx =>
      rcases handleStateReply_eq_some performs with ⟨_, kvSize, _, grown, rfl, _⟩
      exact of_records rfl (transfer chkptIdx rfl) (lt_of_addU64_one grown)
  | applyRepair historyHash =>
      apply committed.of_keeps rfl (chkptIdx_of_perform rfl performs)
      rcases handleApplyRepair_eq_some performs with ⟨_, _, _, _, rfl, _⟩
      exact apply historyHash rfl
  | _ =>
      have same := chkptIdx_of_perform rfl performs
      apply committed.of_keeps rfl same
      rw [same, (log_of_perform rfl performs).1]
      exact committed.inside

/-- A call that respects the checkpoint keeps the prefix. -/
theorem of_step {earlier : List (Call S)} (call : Call S)
    (committed : PrefixKept call.pre.chkptIdx call.pre (earlier.flatMap Call.cues))
    (respects : RespectsCheckpoint earlier call)
    (steps : step call.pre call.input = some (call.post, call.effects)) :
    PrefixKept call.pre.chkptIdx call.post (earlier.flatMap Call.cues ++ call.cues) := by
  refine (call_invariant (P := fun replica trace =>
    PrefixKept call.pre.chkptIdx replica trace ∧
      trace ⊆ earlier.flatMap Call.cues ++ call.cues)
    call (fun replica cue => (replica, cue) ∈ call.cues) ?_ ?_ (fun _ fires => fires)
    ⟨committed, List.subset_append_left _ _⟩ steps).1
  · rintro replica trace msg ⟨holds, sub⟩
    refine ⟨⟨?_, ?_, ?_⟩, sub⟩
    · simpa using holds.above
    · simpa using holds.inside
    · simpa using holds.fresh
  · rintro input replica cue next effects trace ⟨holds, sub⟩ fires guard performs
    constructor
    · apply holds.of_perform guard performs
      · rintro chkptIdx rfl
        exact respects.stateReply replica chkptIdx fires
      · rintro historyHash rfl ⟨firing, firingMem, records⟩
        exact respects.applyRepair ⟨firing, sub firingMem, records⟩ replica historyHash fires
    · apply List.append_subset.mpr
      exact ⟨sub, by simpa using Or.inr fires⟩

end PrefixKept

section Runs

variable {config : Config} {nodeId : NodeId} {kvStore : S} {history : History S}

/-- Along a run that respects its checkpoints the prefix is kept, by every call
and at the end. -/
theorem committed_of_localRun (run : LocalRun config nodeId kvStore history)
    (respects : ∀ earlier call, (earlier ++ [call]) <+: history.calls →
      RespectsCheckpoint earlier call) :
    PrefixKept 0 history.replica (history.calls.flatMap Call.cues) ∧
      ∀ earlier call, (earlier ++ [call]) <+: history.calls → KeepsPrefix earlier call := by
  revert respects
  apply run.call_induction (P := fun history =>
    (∀ earlier call, (earlier ++ [call]) <+: history.calls → RespectsCheckpoint earlier call) →
      PrefixKept 0 history.replica (history.calls.flatMap Call.cues) ∧
        ∀ earlier call, (earlier ++ [call]) <+: history.calls → KeepsPrefix earlier call)
  · intro _
    refine ⟨⟨UInt64.le_refl _, ?_, fun _ => rfl⟩, ?_⟩
    · rintro ⟨firing, firingMem, _⟩
      simp [History.start] at firingMem
    · intro earlier call isPrefix
      simp [History.start] at isPrefix
  · intro history input post effects _ ih steps respects
    obtain ⟨committed, past⟩ := ih fun earlier call isPrefix =>
      respects earlier call (isPrefix.trans (List.prefix_append _ _))
    have kept := PrefixKept.of_step ⟨input, history.replica, post, effects⟩
      { committed with above := UInt64.le_refl _ } (respects _ _ (List.prefix_refl _)) steps
    constructor
    · rw [List.flatMap_append, List.flatMap_singleton]
      exact { kept with above := UInt64.zero_le }
    · intro earlier call isPrefix
      rcases List.prefix_concat_iff.mp isPrefix with last | old
      · obtain ⟨rfl, rfl⟩ := List.concat_inj.mp (by simpa using last)
        exact ⟨kept.above, kept.inside⟩
      · exact past earlier call old

/-- The committed prefix is never lost exactly in the runs that respect their
checkpoints. -/
theorem committed_prefix_iff (run : LocalRun config nodeId kvStore history) :
    (∀ earlier call, (earlier ++ [call]) <+: history.calls → KeepsPrefix earlier call) ↔
      ∀ earlier call, (earlier ++ [call]) <+: history.calls →
        RespectsCheckpoint earlier call := by
  constructor
  · intro keeps earlier call isPrefix
    have callMem : call ∈ history.calls := isPrefix.subset (by simp)
    exact .of_keepsPrefix (run.step_of_mem_calls callMem) (keeps earlier call isPrefix)
  · intro respects
    exact (committed_of_localRun run respects).2

end Runs

/-! ## A run that loses its prefix -/

section Truncated

attribute [local instance] plainHasher

/-- A one-node cluster forms a checkpoint at index 1, times out, and agrees with
itself on a history as long as the number of its LOGs. -/
def truncatingInputs : List Input :=
  [.message .greatest (.speculate "seq" 0 Hash.zero 0),
    .message .greatest (.speculate "seq" 0 Hash.zero 1),
    .message .greatest (.sync "r0" 0 1 (EntryHasher.entryHash (syntheticEntry 0)) 0),
    .event (.chkptTimeout 1),
    .message .greatest (.timeoutMsg "r0" 0 1),
    .message .greatest (.logMsg "r0" 0 0 (EntryHasher.entryHash (syntheticEntry 0))),
    .message .greatest (.repairHistory "r0" 0 0 1),
    .message .greatest (.repairPrepare "r0" 0 0 1),
    .message .greatest (.repairCommit "r0" 0 0 1)]

def truncatedHistory : History MemKvStore :=
  (execute History.next (History.start (Config.forTest 1 0 0) "r0" MemKvStore.new)
    truncatingInputs).get (by decide +kernel)

theorem localRun_truncatedHistory :
    LocalRun (Config.forTest 1 0 0) "r0" MemKvStore.new truncatedHistory :=
  reachable_of_execute (Option.some_get _).symm

theorem truncatedHistory_nonempty : truncatedHistory.calls ≠ [] := by
  decide +kernel

/-- The checkpointed entry 1 is no longer in the log of length 1. -/
theorem not_keepsPrefix_truncatedHistory :
    ¬∀ earlier call, (earlier ++ [call]) <+: truncatedHistory.calls →
      KeepsPrefix earlier call := by
  intro keeps
  have last := keeps truncatedHistory.calls.dropLast
    (truncatedHistory.calls.getLast truncatedHistory_nonempty)
    (by rw [List.dropLast_append_getLast])
  exact absurd (last.inside (by decide +kernel)) (by decide +kernel)

theorem committed_prefix_lost :
    ¬∀ (config : Config) (nodeId : NodeId) (history : History MemKvStore),
      LocalRun config nodeId MemKvStore.new history →
        ∀ earlier call, (earlier ++ [call]) <+: history.calls → KeepsPrefix earlier call :=
  fun keeps => not_keepsPrefix_truncatedHistory (keeps _ _ _ localRun_truncatedHistory)

theorem committed_prefix_iff_truncated :
    ¬∀ earlier call, (earlier ++ [call]) <+: truncatedHistory.calls →
      RespectsCheckpoint earlier call :=
  fun respects => not_keepsPrefix_truncatedHistory
    ((committed_prefix_iff localRun_truncatedHistory).mpr respects)

end Truncated

end Raspen
