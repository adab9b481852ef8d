import Raspen.Consensus.CommittedPrefix
import Raspen.Consensus.LogChain

/-!
# The fast path only appends

The first block of the dispatcher is the only one that appends to the log.  A
call that rebuilds nothing therefore keeps every entry, and what it appends is
chained to a predecessor that is really there.
-/

namespace Raspen

open KvStoreOps Raspen.Transition

/-- A SPEC-REPLY message. -/
def Message.isSpecReply : Message → Bool
  | specReply .. => true
  | _ => false

/-- The SPEC-REPLYs among the effects of a call. -/
def specReplies (effects : List Effect) : List Effect :=
  effects.filter (·.message.isSpecReply)

/-- The call appended `entry` with digest `newHash`, chained to the real hash of
its predecessor, and reported it once. -/
structure Appended [EntryHasher] (call : Call MemKvStore) (entry : KvEntry) (newHash : Hash) :
    Prop where
  stored : call.post.kvStore.entries[call.pre.kvSize]? = some entry
  hash : hashAt call.post.kvStore call.pre.kvSize = .ok newHash
  chained : if call.pre.kvSize = 0 then entry.prevHash = Hash.zero
    else hashAt call.pre.kvStore (call.pre.kvSize - 1) = .ok entry.prevHash
  reported : specReplies call.effects =
    [.broadcast (.specReply call.pre.nodeId call.pre.round call.pre.kvSize newHash)]

/-- What a call on `msg` that rebuilds nothing does to the log. -/
structure AppendOnly [EntryHasher] (msg : Message) (call : Call MemKvStore) : Prop where
  kept : ∀ k < call.pre.kvSize, call.post.kvStore.entries[k]? = call.pre.kvStore.entries[k]?
  size_cases : call.post.kvSize = call.pre.kvSize ∨
    call.post.kvSize.toNat = call.pre.kvSize.toNat + 1
  grows_iff : call.post.kvSize.toNat = call.pre.kvSize.toNat + 1 ↔
    (∃ fromSeq round opHash eta, msg = .speculate fromSeq round opHash eta) ∧
      call.pre.phase = .speculative
  appended : call.post.kvSize.toNat = call.pre.kvSize.toNat + 1 →
    ∃ entry newHash, Appended call entry newHash

/-! ## The blocks after the first -/

section Tail

variable {S : Type} [KvStoreOps S] {order : HashOrder} {msg : Message}

/-- The blocks of `process_message` after the speculative one. -/
def laterStages (order : HashOrder) (msg : Message) : List (ReplicaStage S) :=
  (Input.message order msg).stages.tail

theorem laterStages_subset :
    laterStages order msg ⊆ (Input.message order msg).stages (S := S) :=
  List.tail_subset _

/-- Only the first block appends. -/
theorem no_speculate_of_listen {stage : ReplicaStage S} (stageMem : stage ∈ laterStages order msg)
    {replica : Replica S} {cue : Cue} (listens : stage.listen replica = some cue)
    (logIdx : UInt64) : cue ≠ .speculate logIdx := by
  simp only [laterStages, Input.stages, normalStages, voteStages, exitStages, List.cons_append,
    List.nil_append, List.tail_cons, List.mem_cons, List.not_mem_nil, or_false] at stageMem
  rintro rfl
  rcases stageMem with rfl | rfl | rfl | rfl | rfl | rfl | rfl | rfl | rfl | rfl | rfl | rfl |
    rfl <;>
  · rcases Option.map_eq_some_iff.mp listens with ⟨value, _, same⟩
    contradiction

theorem no_speculate_of_later {firing : Replica S × Cue} {replica : Replica S}
    (fires : firing ∈ fired perform (laterStages order msg) replica) (logIdx : UInt64) :
    firing.2 ≠ .speculate logIdx := by
  rcases exists_stage_of_mem_fired fires with ⟨stage, stageMem, listens⟩
  exact no_speculate_of_listen stageMem listens logIdx

variable {replica post : Replica S} {effects : List Effect}

/-- Unless they rebuild the log, the later blocks leave it alone. -/
theorem log_of_later
    (run : runStages perform (laterStages order msg) replica = some (post, effects))
    (keeps : ∀ firing ∈ fired perform (laterStages order msg) replica,
      firing.2.rebuilds = false) :
    post.kvSize = replica.kvSize ∧ post.kvStore = replica.kvStore := by
  have preserves : Preserves perform (Input.message order msg).stages
      (fun _ cue => cue.writesLog = false) fun state : Replica S =>
        state.kvSize = replica.kvSize ∧ state.kvStore = replica.kvStore := by
    apply preserves_stages
    · intro state msg _ same
      simpa using same
    · intro state cue next emitted ⟨sameSize, sameStore⟩ noWrite _ performs
      obtain ⟨size_eq, store_eq⟩ := log_of_perform noWrite performs
      exact ⟨size_eq.trans sameSize, store_eq.trans sameStore⟩
  refine ((preserves.mono laterStages_subset).of_runStages ⟨rfl, rfl⟩ ?_ run).1
  rintro ⟨state, cue⟩ fires
  cases cue with
  | speculate logIdx => exact absurd rfl (no_speculate_of_later fires logIdx)
  | stateReply | applyRepair => exact absurd (keeps _ fires) (by simp [Cue.rebuilds])
  | _ => rfl

/-- The later blocks report no entry. -/
theorem specReplies_of_later
    (run : runStages perform (laterStages order msg) replica = some (post, effects)) :
    specReplies effects = [] := by
  rw [specReplies, List.filter_eq_nil_iff]
  intro effect effectMem isReply
  rcases exists_firing_of_mem_effects run effectMem with
    ⟨⟨state, cue⟩, fires, next, emitted, performs, emits⟩
  have kind := emits_of_perform performs effect emits
  cases message : effect.message with
  | specReply =>
      rw [message] at kind
      cases cue with
      | speculate logIdx => exact no_speculate_of_later fires logIdx rfl
      | _ => contradiction
  | _ =>
      rw [message] at isReply
      contradiction

end Tail

/-! ## One call -/

section Calls

variable [EntryHasher]

/-- The predecessor of a new entry is in the log, so the fallback hash is never
taken. -/
theorem Provenance.Explains.newEntry_chained {provenance : Provenance}
    {replica : Replica MemKvStore} (explains : provenance.Explains replica) :
    if replica.kvSize = 0 then (newEntry replica replica.kvSize).prevHash = Hash.zero
    else hashAt replica.kvStore (replica.kvSize - 1) =
      .ok (newEntry replica replica.kvSize).prevHash := by
  split
  · rename_i empty
    simp [newEntry, empty]
  · rename_i nonempty
    have positive := UInt64.pos_iff_ne_zero.mpr nonempty
    have stored := MemKvStore.hashAt_of_getElem?
      (explains.log (replica.kvSize - 1) (sub_one_lt positive))
    simp only [newEntry, if_pos positive, stored]
    rfl

theorem AppendOnly.of_step {provenance : Provenance} {order : HashOrder} {msg : Message}
    {pre post : Replica MemKvStore} {effects : List Effect} (explains : provenance.Explains pre)
    (steps : processMessage order pre msg = some (post, effects))
    (keeps : ∀ firing ∈ fired perform (Input.message order msg).stages pre,
      firing.2.rebuilds = false) :
    AppendOnly msg ⟨.message order msg, pre, post, effects⟩ := by
  rcases runStages_cons_eq_some_iff.mp steps with ⟨middle, first, others, head, later, rfl⟩
  have laterKeeps : ∀ firing ∈ fired perform (laterStages order msg) middle,
      firing.2.rebuilds = false := by
    intro firing fires
    apply keeps
    simp only [Input.stages, normalStages, List.cons_append, fired, head]
    exact List.mem_append_right _ fires
  obtain ⟨size_eq, store_eq⟩ := log_of_later later laterKeeps
  have silentLater := specReplies_of_later later
  rcases Stage.run_cases head with ⟨silent, unchanged, rfl⟩ | ⟨cue, listens, performs⟩
  · have sameLog : middle = pre := unchanged
    rw [sameLog] at size_eq store_eq
    have noGuard : canSpeculate pre msg = none := Option.map_eq_none_iff.mp silent
    have notGrown : post.kvSize.toNat ≠ pre.kvSize.toNat + 1 := by
      rw [size_eq]
      omega
    constructor
    · intro k _
      rw [store_eq]
    · exact .inl size_eq
    · constructor
      · intro grown
        exact absurd grown notGrown
      · rintro ⟨isSpeculate, speculative⟩
        rw [canSpeculate_eq_some_iff.mpr ⟨isSpeculate, speculative, rfl⟩] at noGuard
        contradiction
    · intro grown
      exact absurd grown notGrown
  · rcases Option.map_eq_some_iff.mp listens with ⟨logIdx, guard, rfl⟩
    rcases canSpeculate_eq_some_iff.mp guard with ⟨isSpeculate, speculative, rfl⟩
    rcases handleSpeculate_eq_some performs with
      ⟨kvStore, kvSize, newHash, written, reported, grown, rfl, rfl⟩
    have sizeGrew : post.kvSize.toNat = pre.kvSize.toNat + 1 := by
      rw [size_eq]
      exact toNat_of_addU64 grown
    have stored : ∀ k, post.kvStore.entries[k]? =
        if k = pre.kvSize then some (newEntry pre pre.kvSize) else pre.kvStore.entries[k]? := by
      intro k
      cases written
      rw [store_eq]
      exact MemKvStore.getElem?_insert ..
    constructor
    · intro k below
      rw [stored k, if_neg (UInt64.ne_of_lt below)]
    · exact .inr sizeGrew
    · exact ⟨fun _ => ⟨isSpeculate, speculative⟩, fun _ => sizeGrew⟩
    · intro _
      refine ⟨newEntry pre pre.kvSize, newHash, ?_, ?_, explains.newEntry_chained, ?_⟩
      · rw [stored pre.kvSize, if_pos rfl]
      · rw [store_eq]
        exact reported
      · rw [specReplies, List.filter_append, ← specReplies, ← specReplies, silentLater]
        rfl

/-! ## Every call of a run -/

variable {config : Config} {nodeId : NodeId} {history : History MemKvStore}

/-- At the start of every call and wherever one of its handlers runs, some
provenance explains the log. -/
theorem exists_explains_of_localRun (run : LocalRun config nodeId MemKvStore.new history) :
    ∀ call ∈ history.calls, (∃ provenance : Provenance, provenance.Explains call.pre) ∧
      ∀ firing ∈ call.cues, ∃ provenance : Provenance, provenance.Explains firing.1 := by
  have holds := run.of_preserves
    (P := fun replica => ∃ provenance : Provenance, provenance.Explains replica)
    (fun _ _ => True) ?_ (fun _ _ _ _ => trivial) ⟨_, explains_new config nodeId⟩
  · intro call callMem
    obtain ⟨before, _, during⟩ := holds.2 call callMem
    exact ⟨before, during⟩
  · intro call _
    apply preserves_stages
    · rintro replica msg _ ⟨provenance, explains⟩
      exact ⟨provenance, explains.of_same (by simp) (by simp) (by simp) (by simp)⟩
    · rintro replica cue next effects ⟨provenance, explains⟩ _ guard performs
      exact ⟨_, explains.of_perform guard performs⟩

/-- The log of every reachable state has no gaps, and every message call that does
not rebuild it at most appends one chained entry. -/
theorem append_only (run : LocalRun config nodeId MemKvStore.new history) :
    (∀ k < history.replica.kvSize, ∃ entry, history.replica.kvStore.entries[k]? = some entry) ∧
      ∀ call ∈ history.calls, ∀ order msg, call.input = .message order msg →
        (∀ firing ∈ call.cues, firing.2.rebuilds = false) → AppendOnly msg call := by
  constructor
  · intro k below
    exact ⟨_, (explains_of_localRun run).log k below⟩
  · rintro ⟨input, pre, post, effects⟩ callMem order msg rfl keeps
    obtain ⟨⟨provenance, explains⟩, _⟩ := exists_explains_of_localRun run _ callMem
    exact .of_step explains (run.step_of_mem_calls callMem) keeps

end Calls

section Appending

attribute [local instance] plainHasher

/-- A replica serves two requests and then has its own SYNC delivered. -/
def appendingHistory : History MemKvStore :=
  (execute History.next (History.start (Config.forTest 4 1 0) "r1" MemKvStore.new)
    [.message .greatest (.speculate "seq" 0 Hash.zero 0),
      .message .greatest (.speculate "seq" 0 (Hash.fill 1) 0),
      .message .greatest (.sync "r1" 0 1 Hash.zero 0)]).get (by decide +kernel)

theorem localRun_appendingHistory :
    LocalRun (Config.forTest 4 1 0) "r1" MemKvStore.new appendingHistory :=
  reachable_of_execute (Option.some_get _).symm

/-- The second entry is chained to the first. -/
theorem append_only_appending :
    (∃ call ∈ appendingHistory.calls, call.pre.kvSize = 1 ∧ call.post.kvSize = 2) ∧
      (∀ k < appendingHistory.replica.kvSize,
        ∃ entry, appendingHistory.replica.kvStore.entries[k]? = some entry) ∧
      ∀ call ∈ appendingHistory.calls, ∀ order msg, call.input = .message order msg →
        (∀ firing ∈ call.cues, firing.2.rebuilds = false) → AppendOnly msg call :=
  ⟨by decide +kernel, append_only localRun_appendingHistory⟩

end Appending

end Raspen
