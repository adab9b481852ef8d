import Raspen.Consensus.AppendOnly
import Raspen.Consensus.Inbox

/-!
# What matching SPEC-REPLYs say

The source writes the log index where the operation hash of the request would
go, so a SPEC-REPLY binds the entries of the log and not the requests behind
them.  A replica that hears nothing but requests holds the same entries as any
other, whatever the requests were.
-/

namespace Raspen

open KvStoreOps Raspen.Transition

section Calls

variable {S : Type}

/-- The run served nothing but requests. -/
def SpeculatesOnly (history : History S) : Prop :=
  ∀ call ∈ history.calls, ∃ order fromSeq round opHash eta,
    call.input = .message order (.speculate fromSeq round opHash eta)

variable [KvStoreOps S]

/-- The call appended the request with `opHash` at `logIdx`. -/
def Call.Appends (call : Call S) (logIdx : UInt64) (opHash : Hash) : Prop :=
  (∃ order fromSeq round eta,
    call.input = .message order (.speculate fromSeq round opHash eta)) ∧
    ∃ firing ∈ call.cues, firing.2 = .speculate logIdx

omit [KvStoreOps S] in
/-- The call broadcast a SPEC-REPLY for `logIdx` that carries `logHash`. -/
def Call.Replies (call : Call S) (logIdx : UInt64) (logHash : Hash) : Prop :=
  ∃ sender round, .broadcast (.specReply sender round logIdx logHash) ∈ call.effects

end Calls

/-! ## Replicas that hear nothing but requests -/

section Replicas

variable [EntryHasher]

/-- No vote is stored, nothing is proposed, and the log was never rebuilt. -/
structure Untouched (replica : Replica MemKvStore) : Prop where
  logMsgs : replica.logMsgs = ∅
  repairHistoryMsgs : replica.repairHistoryMsgs = ∅
  proposed : replica.proposedHistoryHash = 0
  explained : ∃ provenance : Provenance, provenance.Explains replica ∧ provenance.base = 0

/-- A guard that passed while a request was being served. -/
def RequestGuard (replica : Replica MemKvStore) (cue : Cue) : Prop :=
  ∃ order fromSeq round opHash eta,
    Guard (.message order (.speculate fromSeq round opHash eta)) replica cue

namespace Untouched

variable {replica next : Replica MemKvStore} {cue : Cue} {effects : List Effect}

/-- Whatever the thresholds, a request leads to no vote and to no other history
than the empty one. -/
theorem keeps_store (untouched : Untouched replica) (guard : RequestGuard replica cue) :
    cue.rebuilds = false ∨ cue = .applyRepair 0 := by
  rcases guard with ⟨order, fromSeq, round, opHash, eta, guard⟩
  cases cue with
  | stateReply chkptIdx =>
      rcases guard with ⟨_, msg, delivery, guard⟩
      rcases (canStateReply_eq_some_iff.mp guard).2 with ⟨sender, chkptHash, rfl⟩
      cases delivery
  | applyRepair historyHash =>
      right
      have isProposed := (canApplyRepair_eq_some_iff.mp guard).2.1
      rw [isProposed, untouched.proposed]
  | _ => exact .inl rfl

theorem proposed_of_perform (untouched : Untouched replica) (guard : RequestGuard replica cue)
    (performs : perform replica cue = some (next, effects)) : next.proposedHistoryHash = 0 := by
  rcases guard with ⟨order, fromSeq, round, opHash, eta, guard⟩
  cases cue with
  | speculate logIdx =>
      rcases handleSpeculate_eq_some performs with ⟨_, _, _, _, _, _, rfl, _⟩
      exact untouched.proposed
  | stateReply chkptIdx =>
      rcases handleStateReply_eq_some performs with ⟨_, _, _, _, rfl, _⟩
      exact untouched.proposed
  | broadcastHistory historyHash =>
      have noSenders := (canBroadcastHistory_eq_some_iff.mp guard).2.2.2
      rw [untouched.logMsgs] at noSenders
      cases performs
      exact noSenders
  | repairPrepare historyHash =>
      rcases guard with ⟨_, _, _, guard⟩
      rcases (canRepairPrepare_eq_some guard).2 with ⟨sender, stored⟩
      rw [untouched.repairHistoryMsgs] at stored
      exact absurd stored (Finset.notMem_empty _)
  | applyRepair historyHash =>
      rcases handleApplyRepair_eq_some performs with ⟨_, _, _, _, rfl, _⟩
      rfl
  | repairDoneCatchup oldRound =>
      rcases perform_repairDoneCatchup_eq_some performs with ⟨_, _, rfl, _⟩
      rfl
  | viewChange newView =>
      rcases perform_viewChange_eq_some performs with ⟨view, _, rfl, _⟩
      exact untouched.proposed
  | _ =>
      cases performs
      exact untouched.proposed

omit [EntryHasher] in
theorem base_of_next {provenance : Provenance} (unbased : provenance.base = 0)
    (keeps : cue.rebuilds = false ∨ cue = .applyRepair 0) : (provenance.next cue).base = 0 := by
  cases cue with
  | stateReply chkptIdx => simp [Cue.rebuilds] at keeps
  | applyRepair historyHash =>
      have isZero : historyHash = 0 := by simpa [Cue.rebuilds] using keeps
      simp [isZero, Provenance.next]
  | _ => exact unbased

theorem of_perform (untouched : Untouched replica) (guard : RequestGuard replica cue)
    (performs : perform replica cue = some (next, effects)) : Untouched next := by
  have inbox_eq := inbox_of_perform performs
  simp only [Replica.inbox, List.cons.injEq] at inbox_eq
  have keeps := untouched.keeps_store guard
  have proposed := untouched.proposed_of_perform guard performs
  rcases guard with ⟨order, fromSeq, round, opHash, eta, guard⟩
  obtain ⟨provenance, explains, unbased⟩ := untouched.explained
  exact
    { logMsgs := inbox_eq.2.2.2.2.1.trans untouched.logMsgs
      repairHistoryMsgs := inbox_eq.2.2.2.2.2.1.trans untouched.repairHistoryMsgs
      proposed := proposed
      explained := ⟨_, explains.of_perform guard performs, base_of_next unbased keeps⟩ }

end Untouched

/-- Cues that keep the store, other than speculation, leave every entry alone. -/
theorem kvStore_of_later {replica next : Replica MemKvStore} {cue : Cue} {effects : List Effect}
    (keeps : cue.rebuilds = false ∨ cue = .applyRepair 0) (later : 0 < cue.place)
    (performs : perform replica cue = some (next, effects)) :
    next.kvStore = replica.kvStore := by
  cases cue with
  | speculate logIdx => simp [Cue.place] at later
  | stateReply chkptIdx => simp [Cue.rebuilds] at keeps
  | applyRepair historyHash =>
      have isZero : historyHash = 0 := by simpa [Cue.rebuilds] using keeps
      rcases handleApplyRepair_eq_some performs with ⟨_, _, _, installed, rfl, _⟩
      simp only [isZero, mergedStore, UInt64.lt_irrefl, if_false, Option.some.injEq] at installed
      exact installed.symm
  | _ => exact (log_of_perform rfl performs).2

/-- What speculation writes completes the log up to its index. -/
theorem entries_of_speculate {provenance : Provenance} {replica next : Replica MemKvStore}
    {effects : List Effect} (explains : provenance.Explains replica)
    (handled : handleSpeculate replica replica.kvSize = some (next, effects)) :
    ∀ k ≤ replica.kvSize,
      next.kvStore.entries[k]? = some (expectedEntry provenance.base.toNat k.toNat) := by
  rcases handleSpeculate_eq_some handled with ⟨_, _, _, written, _, _, rfl, _⟩
  cases written
  intro k inside
  rw [MemKvStore.getElem?_insert]
  by_cases top : k = replica.kvSize
  · rw [if_pos top, explains.newEntry_eq, top]
  · rw [if_neg top]
    exact explains.log k (UInt64.lt_of_le_of_ne inside top)

/-! ## Their replies -/

variable {config config' : Config} {nodeId nodeId' : NodeId} {history history' : History MemKvStore}

/-- Requests leave the replica untouched, wherever a handler runs. -/
theorem untouched_of_localRun (run : LocalRun config nodeId MemKvStore.new history)
    (only : SpeculatesOnly history) : ∀ call ∈ history.calls, ∀ firing ∈ call.cues,
      Untouched firing.1 ∧ RequestGuard firing.1 firing.2 := by
  have guards : ∀ call ∈ history.calls, ∀ firing ∈ call.cues,
      RequestGuard firing.1 firing.2 := by
    intro call callMem firing fires
    rcases only call callMem with ⟨order, fromSeq, round, opHash, eta, isRequest⟩
    exact ⟨order, fromSeq, round, opHash, eta, isRequest ▸ Call.guard_of_mem_cues fires⟩
  have start : Untouched (Replica.new config nodeId MemKvStore.new) :=
    ⟨rfl, rfl, rfl, ⟨_, explains_new config nodeId, rfl⟩⟩
  have holds := run.of_preserves RequestGuard ?_ guards start
  · intro call callMem firing fires
    exact ⟨(holds.2 call callMem).2.2 firing fires, guards call callMem firing fires⟩
  · intro call callMem
    apply preserves_stages
    · intro replica msg delivery untouched
      rcases only call callMem with ⟨order, fromSeq, round, opHash, eta, isRequest⟩
      rw [isRequest] at delivery
      cases delivery
      exact untouched
    · intro replica cue next effects untouched guard _ performs
      exact untouched.of_perform guard performs

/-- A reply reports the expected entry, and the log holds the expected entries up
to it. -/
theorem reply_of_speculatesOnly (run : LocalRun config nodeId MemKvStore.new history)
    (only : SpeculatesOnly history) {call : Call MemKvStore} (callMem : call ∈ history.calls)
    {logIdx : UInt64} {logHash : Hash} (replies : call.Replies logIdx logHash) :
    logHash = EntryHasher.entryHash (expectedEntry 0 logIdx.toNat) ∧
      ∀ k ≤ logIdx, call.post.kvStore.entries[k]? = some (expectedEntry 0 k.toNat) := by
  rcases replies with ⟨sender, round, effectMem⟩
  have steps := run.step_of_mem_calls callMem
  rw [step_eq_runStages] at steps
  rcases exists_firing_of_mem_effects steps effectMem with
    ⟨⟨replica, cue⟩, fires, next, emitted, performs, emits⟩
  have untouched := (untouched_of_localRun run only call callMem _ fires).1
  obtain ⟨provenance, explains, unbased⟩ := untouched.explained
  have guard := Call.guard_of_mem_cues fires
  have hash := explains.specReply_of_perform guard performs emits rfl
  have base_eq : provenance.base.toNat = 0 := congrArg UInt64.toNat unbased
  rw [base_eq] at hash
  refine ⟨hash, ?_⟩
  have kind := emits_of_perform performs _ emits
  cases cue with
  | speculate idx =>
      rcases guard with ⟨_, msg, _, guard⟩
      have atTop : idx = replica.kvSize := (canSpeculate_eq_some_iff.mp guard).2.2
      subst atTop
      rcases handleSpeculate_eq_some performs with ⟨_, _, _, _, _, _, _, rfl⟩
      cases List.mem_singleton.mp emits
      apply holds_after_allowed (P := fun state : Replica MemKvStore =>
        ∀ k ≤ replica.kvSize, state.kvStore.entries[k]? = some (expectedEntry 0 k.toNat))
        (fun _ cue => cue.rebuilds = false ∨ cue = .applyRepair 0)
        (pairwise_stages call.input) steps fires
      · intro next emitted performs
        have entries := entries_of_speculate explains performs
        rw [base_eq] at entries
        exact entries
      · intro firing fires
        obtain ⟨untouched, guard⟩ := untouched_of_localRun run only call callMem firing fires
        exact untouched.keeps_store guard
      · apply preserves_stages
        · intro state msg _ holds
          simpa using holds
        · intro state cue next emitted holds isLater _ performs
          rw [kvStore_of_later isLater.1 isLater.2 performs]
          exact holds
  | _ => contradiction

/-- Two replicas that hear nothing but requests hold the same log up to a
SPEC-REPLY on which they agree.  The index alone makes them agree, and the
entries name their index and no request. -/
theorem matching_replies (injective : Function.Injective EntryHasher.entryHash)
    (run : LocalRun config nodeId MemKvStore.new history)
    (run' : LocalRun config' nodeId' MemKvStore.new history') (only : SpeculatesOnly history)
    (only' : SpeculatesOnly history') {call call' : Call MemKvStore}
    (callMem : call ∈ history.calls) (callMem' : call' ∈ history'.calls)
    {logIdx logIdx' : UInt64} {logHash logHash' : Hash} (replies : call.Replies logIdx logHash)
    (replies' : call'.Replies logIdx' logHash') :
    (logIdx = logIdx' ∧ logHash = logHash' → ∀ k ≤ logIdx, ∃ entry, entry.opHash = k ∧
      call.post.kvStore.entries[k]? = some entry ∧
        call'.post.kvStore.entries[k]? = some entry) ∧
      (logHash = logHash' ↔ logIdx = logIdx') := by
  obtain ⟨rfl, entries⟩ := reply_of_speculatesOnly run only callMem replies
  obtain ⟨rfl, entries'⟩ := reply_of_speculatesOnly run' only' callMem' replies'
  have index : ∀ k : UInt64, (expectedEntry 0 k.toNat).opHash = k := by
    intro k
    rw [opHash_expectedEntry, UInt64.ofNat_toNat]
  constructor
  · rintro ⟨rfl, _⟩ k inside
    exact ⟨_, index k, entries k inside, entries' k inside⟩
  · constructor
    · intro sameHash
      have sameOp := congrArg KvEntry.opHash (injective sameHash)
      rw [index, index] at sameOp
      exact sameOp
    · intro sameIdx
      rw [sameIdx]

end Replicas

/-! ## Different requests with one reply -/

section Requests

attribute [local instance] plainHasher

/-- A replica serves two requests. -/
def requestInputs (first second : Hash) : List Input :=
  [first, second].map fun opHash => .message .greatest (.speculate "seq" 0 opHash 0)

def requestStart : History MemKvStore :=
  History.start (Config.forTest 4 1 0) "r1" MemKvStore.new

theorem speculatesOnly_of_requests {first second : Hash} {history : History MemKvStore}
    (runs : execute History.next requestStart (requestInputs first second) = some history) :
    SpeculatesOnly history := by
  intro call callMem
  have inputMem : call.input ∈ history.calls.map Call.input := List.mem_map_of_mem callMem
  rw [History.inputs_of_execute runs] at inputMem
  rcases List.mem_map.mp inputMem with ⟨opHash, _, isInput⟩
  exact ⟨_, _, _, _, _, isInput.symm⟩

theorem appends_of_delivered {call : Call MemKvStore} {fromSeq : NodeId} {round eta logIdx : UInt64}
    {opHash : Hash} (delivered : call.input.delivered = some (.speculate fromSeq round opHash eta))
    (fires : ∃ firing ∈ call.cues, firing.2 = .speculate logIdx) : call.Appends logIdx opHash := by
  refine ⟨?_, fires⟩
  cases input : call.input with
  | event timer => simp [input, Input.delivered] at delivered
  | message order msg =>
      rw [input] at delivered
      cases delivered
      exact ⟨order, fromSeq, round, eta, rfl⟩

def firstRequests : History MemKvStore :=
  (execute History.next requestStart (requestInputs (Hash.fill 1) (Hash.fill 2))).get
    (by decide +kernel)

theorem execute_firstRequests :
    execute History.next requestStart (requestInputs (Hash.fill 1) (Hash.fill 2)) =
      some firstRequests :=
  (Option.some_get _).symm

def secondRequests : History MemKvStore :=
  (execute History.next requestStart (requestInputs (Hash.fill 3) (Hash.fill 4))).get
    (by decide +kernel)

theorem execute_secondRequests :
    execute History.next requestStart (requestInputs (Hash.fill 3) (Hash.fill 4)) =
      some secondRequests :=
  (Option.some_get _).symm

/-- The reply to the second request. -/
theorem exists_reply_firstRequests :
    ∃ call ∈ firstRequests.calls, .broadcast (.specReply "r1" 0 1
      (EntryHasher.entryHash (expectedEntry 0 1))) ∈ call.effects := by
  decide +kernel

theorem exists_reply_secondRequests :
    ∃ call ∈ secondRequests.calls, .broadcast (.specReply "r1" 0 1
      (EntryHasher.entryHash (expectedEntry 0 1))) ∈ call.effects := by
  decide +kernel

theorem exists_append_firstRequests :
    ∃ call ∈ firstRequests.calls, call.Appends 1 (Hash.fill 2) := by
  have served : ∃ call ∈ firstRequests.calls,
      call.input.delivered = some (.speculate "seq" 0 (Hash.fill 2) 0) ∧
      ∃ firing ∈ call.cues, firing.2 = .speculate 1 := by
    decide +kernel
  rcases served with ⟨call, callMem, delivered, fires⟩
  exact ⟨call, callMem, appends_of_delivered delivered fires⟩

theorem exists_append_secondRequests :
    ∃ call ∈ secondRequests.calls, call.Appends 1 (Hash.fill 4) := by
  have served : ∃ call ∈ secondRequests.calls,
      call.input.delivered = some (.speculate "seq" 0 (Hash.fill 4) 0) ∧
      ∃ firing ∈ call.cues, firing.2 = .speculate 1 := by
    decide +kernel
  rcases served with ⟨call, callMem, delivered, fires⟩
  exact ⟨call, callMem, appends_of_delivered delivered fires⟩

/-- Two replicas reply alike to different requests. -/
theorem replies_collide :
    Function.Injective plainHasher.entryHash ∧
      ¬∀ (config config' : Config) (nodeId nodeId' : NodeId)
        (history history' : History MemKvStore),
        LocalRun config nodeId MemKvStore.new history →
        LocalRun config' nodeId' MemKvStore.new history' →
        SpeculatesOnly history → SpeculatesOnly history' →
        ∀ call ∈ history.calls, ∀ call' ∈ history'.calls, ∀ logIdx logHash,
          call.Replies logIdx logHash → call'.Replies logIdx logHash →
          ∀ k ≤ logIdx, ∀ opHash opHash',
            (∃ earlier ∈ history.calls, earlier.Appends k opHash) →
            (∃ earlier ∈ history'.calls, earlier.Appends k opHash') → opHash = opHash' := by
  constructor
  · exact plainHasher_injective
  · intro same
    rcases exists_reply_firstRequests with ⟨call, callMem, replies⟩
    rcases exists_reply_secondRequests with ⟨call', callMem', replies'⟩
    have equal := same _ _ _ _ _ _ (reachable_of_execute execute_firstRequests)
      (reachable_of_execute execute_secondRequests)
      (speculatesOnly_of_requests execute_firstRequests)
      (speculatesOnly_of_requests execute_secondRequests) call callMem call' callMem' 1 _
      ⟨_, _, replies⟩ ⟨_, _, replies'⟩ 1 (UInt64.le_refl 1) (Hash.fill 2) (Hash.fill 4)
      exists_append_firstRequests exists_append_secondRequests
    exact absurd equal (by decide)

/-- After their second requests both replicas hold the same two entries. -/
theorem matching_replies_requests :
    ∃ call ∈ firstRequests.calls, ∃ call' ∈ secondRequests.calls,
      ∀ k ≤ (1 : UInt64), ∃ entry, entry.opHash = k ∧
        call.post.kvStore.entries[k]? = some entry ∧
          call'.post.kvStore.entries[k]? = some entry := by
  rcases exists_reply_firstRequests with ⟨call, callMem, replies⟩
  rcases exists_reply_secondRequests with ⟨call', callMem', replies'⟩
  exact ⟨call, callMem, call', callMem',
    (matching_replies plainHasher_injective (reachable_of_execute execute_firstRequests)
      (reachable_of_execute execute_secondRequests)
      (speculatesOnly_of_requests execute_firstRequests)
      (speculatesOnly_of_requests execute_secondRequests) callMem callMem' ⟨_, _, replies⟩
      ⟨_, _, replies'⟩).1 ⟨rfl, rfl⟩⟩

end Requests

end Raspen
