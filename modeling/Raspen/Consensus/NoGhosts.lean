import Raspen.Consensus.AppendOnly

/-!
# Entries beyond the log

`kv_size` and the store are two copies of one fact.  They agree on every
reachable state, unless an empty history is applied to a log with entries: it
resets the size and leaves the store alone.
-/

namespace Raspen

open KvStoreOps Raspen.Transition

section Replicas

variable [EntryHasher]

/-- The store holds nothing beyond `kv_size`, its size is `kv_size`, and its top
hash speaks about entry `kv_size - 1`. -/
structure NoGhosts (replica : Replica MemKvStore) : Prop where
  inside : ∀ k entry, replica.kvStore.entries[k]? = some entry → k < replica.kvSize
  size : size replica.kvStore = some replica.kvSize
  topHash : if replica.kvSize = 0 then topHash replica.kvStore = Hash.zero
    else ∃ entry, replica.kvStore.entries[replica.kvSize - 1]? = some entry ∧
      topHash replica.kvStore = entry.prevHash

/-- A dense log whose entries all lie below its size. -/
structure Filled (replica : Replica MemKvStore) : Prop where
  dense : ∃ provenance : Provenance, provenance.Explains replica
  inside : ∀ k entry, replica.kvStore.entries[k]? = some entry → k < replica.kvSize

omit [EntryHasher] in
/-- Adding one undoes taking the predecessor. -/
theorem addU64_sub_one {size : UInt64} (nonempty : size ≠ 0) : addU64 (size - 1) 1 = some size := by
  have predecessor := toNat_sub_one (UInt64.pos_iff_ne_zero.mpr nonempty)
  have small : (size - 1).toNat + (1 : UInt64).toNat < 2 ^ 64 := by
    have := size.toNat_lt
    simp only [UInt64.toNat_one]
    omega
  rw [addU64, if_pos small, UInt64.sub_add_cancel]

namespace Filled

variable {replica next : Replica MemKvStore}

/-- The last entry of the store is the top of the log. -/
theorem lastEntry_eq (filled : Filled replica) (nonempty : replica.kvSize ≠ 0) :
    ∃ entry, replica.kvStore.entries[replica.kvSize - 1]? = some entry ∧
      replica.kvStore.lastEntry = some (replica.kvSize - 1, entry) := by
  obtain ⟨provenance, explains⟩ := filled.dense
  have positive := UInt64.pos_iff_ne_zero.mpr nonempty
  have predecessor := toNat_sub_one positive
  have stored := explains.log _ (sub_one_lt positive)
  refine ⟨_, stored, MemKvStore.lastEntry_eq_some_iff.mpr ⟨stored, ?_⟩⟩
  intro j other atIndex
  have inside := UInt64.lt_iff_toNat_lt.mp (filled.inside j other atIndex)
  rw [UInt64.le_iff_toNat_le]
  omega

theorem lastEntry_eq_none (filled : Filled replica) (empty : replica.kvSize = 0) :
    replica.kvStore.lastEntry = none := by
  apply MemKvStore.lastEntry_eq_none_iff.mpr
  intro k
  cases atIndex : replica.kvStore.entries[k]? with
  | none => rfl
  | some entry =>
      have inside := filled.inside k entry atIndex
      rw [empty] at inside
      exact absurd inside (by simp)

theorem noGhosts (filled : Filled replica) : NoGhosts replica := by
  by_cases empty : replica.kvSize = 0
  · have last := filled.lastEntry_eq_none empty
    exact
      { inside := filled.inside
        size := by simp only [KvStoreOps.size, last, empty]
        topHash := by simp [KvStoreOps.topHash, last, empty] }
  · obtain ⟨entry, stored, last⟩ := filled.lastEntry_eq empty
    exact
      { inside := filled.inside
        size := by simp only [KvStoreOps.size, last, addU64_sub_one empty]
        topHash := by
          rw [if_neg empty]
          exact ⟨entry, stored, by simp [KvStoreOps.topHash, last]⟩ }

theorem new (config : Config) (nodeId : NodeId) :
    Filled (Replica.new config nodeId MemKvStore.new) where
  dense := ⟨_, explains_new config nodeId⟩
  inside k entry atIndex := by simp [Replica.new, MemKvStore.new] at atIndex

theorem store (filled : Filled replica) (msg : Message) : Filled (replica.store msg) where
  dense := by
    obtain ⟨provenance, explains⟩ := filled.dense
    exact ⟨provenance, explains.of_same (by simp) (by simp) (by simp) (by simp)⟩
  inside := by simpa using filled.inside

/-- Every handler keeps the store inside the log, unless it applies an empty
history to a log with entries. -/
theorem of_perform {input : Input} {cue : Cue} {effects : List Effect} (filled : Filled replica)
    (allowed : cue = .applyRepair 0 → replica.kvSize = 0) (guard : Guard input replica cue)
    (performs : perform replica cue = some (next, effects)) : Filled next := by
  obtain ⟨provenance, explains⟩ := filled.dense
  refine ⟨⟨_, explains.of_perform guard performs⟩, ?_⟩
  cases cue with
  | speculate logIdx =>
      rcases guard with ⟨_, msg, _, guard⟩
      rcases canSpeculate_eq_some_iff.mp guard with ⟨_, _, rfl⟩
      rcases handleSpeculate_eq_some performs with ⟨_, kvSize, _, written, _, grown, rfl, _⟩
      cases written
      intro k entry atIndex
      by_cases top : k = replica.kvSize
      · rw [top]
        exact lt_of_addU64_one grown
      · rw [MemKvStore.getElem?_insert, if_neg top] at atIndex
        exact UInt64.lt_trans (filled.inside k entry atIndex) (lt_of_addU64_one grown)
  | stateReply chkptIdx =>
      rcases handleStateReply_eq_some performs with ⟨_, kvSize, rebuilds, grown, rfl, _⟩
      intro k entry atIndex
      rw [UInt64.lt_iff_toNat_lt, toNat_of_addU64 grown]
      exact lt_of_rebuild rebuilds atIndex
  | applyRepair historyHash =>
      rcases handleApplyRepair_eq_some performs with ⟨_, _, _, installed, rfl, _⟩
      intro k entry atIndex
      by_cases positive : 0 < historyHash
      · rw [mergedStore, if_pos positive] at installed
        rw [UInt64.lt_iff_toNat_lt]
        exact lt_of_rebuild (ok_of_toOption_eq_some installed) atIndex
      · have isZero : historyHash = 0 := by
          simpa [UInt64.pos_iff_ne_zero] using positive
        rw [mergedStore, if_neg positive] at installed
        cases installed
        have inside := filled.inside k entry atIndex
        rw [allowed (congrArg Cue.applyRepair isZero)] at inside
        exact absurd inside (by simp)
  | _ =>
      obtain ⟨size_eq, store_eq⟩ := log_of_perform rfl performs
      rw [size_eq, store_eq]
      exact filled.inside

end Filled

variable {config : Config} {nodeId : NodeId} {history : History MemKvStore}

/-- Applying an empty history leaves the old entries beyond the new size. -/
theorem NoGhosts.empty_of_applyRepair {call : Call MemKvStore} {replica : Replica MemKvStore}
    (noGhosts : NoGhosts call.post)
    (steps : step call.pre call.input = some (call.post, call.effects))
    (dense : ∃ provenance : Provenance, provenance.Explains replica)
    (fires : (replica, .applyRepair 0) ∈ call.cues) : replica.kvSize = 0 := by
  obtain ⟨provenance, explains⟩ := dense
  have applied := applied_of_mem_cues steps fires
  by_contra nonempty
  have sameStore : call.post.kvStore = replica.kvStore := by
    have installed := applied.store
    simp only [mergedStore, UInt64.lt_irrefl, if_false, Option.some.injEq] at installed
    exact installed.symm
  have first := explains.log 0 (UInt64.pos_iff_ne_zero.mpr nonempty)
  rw [← sameStore] at first
  have inside := noGhosts.inside 0 _ first
  rw [applied.kvSize] at inside
  exact UInt64.lt_irrefl _ inside

/-- The states of a run have no entries beyond their logs exactly when an empty
history is only ever applied to an empty log. -/
theorem no_ghosts_iff (run : LocalRun config nodeId MemKvStore.new history) :
    (∀ call ∈ history.calls, NoGhosts call.post) ↔
      ∀ call ∈ history.calls, ∀ firing ∈ call.cues, firing.2 = .applyRepair 0 →
        firing.1.kvSize = 0 := by
  constructor
  · rintro noGhosts call callMem ⟨replica, cue⟩ fires rfl
    have dense := (exists_explains_of_localRun run call callMem).2 _ fires
    exact (noGhosts call callMem).empty_of_applyRepair (run.step_of_mem_calls callMem) dense fires
  · intro empties call callMem
    have filled := run.of_preserves (P := Filled)
      (fun replica cue => cue = .applyRepair 0 → replica.kvSize = 0) ?_ empties
      (Filled.new config nodeId)
    · exact (filled.2 call callMem).2.1.noGhosts
    · intro call _
      apply preserves_stages
      · intro replica msg _ filled
        exact filled.store msg
      · intro replica cue next effects filled allowed guard performs
        exact filled.of_perform allowed guard performs

end Replicas

/-! ## A run with ghosts -/

section Ghosts

attribute [local instance] plainHasher

/-- A replica appends an entry, follows a proof into REPAIR, and a history of
length 0 wins the vote. -/
def emptyingInputs : List Input :=
  [.message .greatest (.speculate "seq" 0 Hash.zero 0),
    .message .greatest (.conflictProof 0 0),
    .message .greatest (.repairHistory "r0" 0 0 0),
    .message .greatest (.repairPrepare "r0" 0 0 0),
    .message .greatest (.repairCommit "r0" 0 0 0)]

def emptiedHistory : History MemKvStore :=
  (execute History.next (History.start (Config.forTest 1 0 0) "r0" MemKvStore.new)
    emptyingInputs).get (by decide +kernel)

theorem localRun_emptiedHistory :
    LocalRun (Config.forTest 1 0 0) "r0" MemKvStore.new emptiedHistory :=
  reachable_of_execute (Option.some_get _).symm

/-- The log is empty, but the store still has size 1. -/
theorem not_noGhosts_emptiedHistory : ¬∀ call ∈ emptiedHistory.calls, NoGhosts call.post := by
  intro noGhosts
  have ghost : ∃ call ∈ emptiedHistory.calls,
      KvStoreOps.size call.post.kvStore ≠ some call.post.kvSize := by
    decide +kernel
  rcases ghost with ⟨call, callMem, differs⟩
  exact differs (noGhosts call callMem).size

theorem ghosts_left :
    ¬∀ (config : Config) (nodeId : NodeId) (history : History MemKvStore),
      LocalRun config nodeId MemKvStore.new history →
        ∀ call ∈ history.calls, NoGhosts call.post :=
  fun noGhosts => not_noGhosts_emptiedHistory (noGhosts _ _ _ localRun_emptiedHistory)

theorem no_ghosts_iff_emptied :
    ¬∀ call ∈ emptiedHistory.calls, ∀ firing ∈ call.cues, firing.2 = .applyRepair 0 →
      firing.1.kvSize = 0 :=
  fun empties => not_noGhosts_emptiedHistory ((no_ghosts_iff localRun_emptiedHistory).mpr empties)

end Ghosts

end Raspen
