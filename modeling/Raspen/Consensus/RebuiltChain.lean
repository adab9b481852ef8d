import Raspen.Consensus.CatchUp
import Raspen.Storage.TopHash

/-!
# Rebuilt logs and the hash chain

A rebuilt entry carries its own index, cut to a byte and repeated, where its
predecessor's hash belongs.  Such a log is a chain only where the hash function happens
to agree, and never beyond 257 entries.
-/

namespace Raspen

open KvStoreOps Raspen.HashChain Raspen.Transition

section Replicas

variable [EntryHasher]

/-- The log of a replica is a hash chain: it is dense, its first entry carries zeros and
every later one the hash of its predecessor. -/
def HashChained (replica : Replica MemKvStore) : Prop :=
  Chained KvEntry.prevHash EntryHasher.entryHash Hash.zero replica.kvSize.toNat
    replica.kvStore.log

/-- At most one of the first `count` synthetic entries has a predecessor, or the hash of
each predecessor is the byte that the entry carries. -/
def Links (count : Nat) : Prop :=
  count ≤ 1 ∨ count ≤ 257 ∧ ∀ k, k + 1 < count →
    EntryHasher.entryHash (syntheticEntry (UInt64.ofNat k)) =
      Hash.fill (UInt64.ofNat (k + 1)).toUInt8

/-- Two predecessors with equal hashes are 256 apart at the least. -/
theorem le_of_linked (injective : Function.Injective EntryHasher.entryHash) {count : Nat}
    (linked : ∀ k, k + 1 < count → (syntheticEntry (UInt64.ofNat (k + 1))).prevHash =
      EntryHasher.entryHash (syntheticEntry (UInt64.ofNat k))) : count ≤ 257 := by
  by_contra long
  have first := linked 0 (by omega)
  have again := linked 256 (by omega)
  have sameCarried : (syntheticEntry (UInt64.ofNat (0 + 1))).prevHash =
      (syntheticEntry (UInt64.ofNat (256 + 1))).prevHash := rfl
  have same := injective (first.symm.trans (sameCarried.trans again))
  exact absurd (congrArg KvEntry.opHash same) (by decide)

/-- A log of synthetic entries is a chain exactly when they link. -/
theorem hashChained_iff_of_synthetic (injective : Function.Injective EntryHasher.entryHash)
    {replica : Replica MemKvStore} (nonempty : 0 < replica.kvSize.toNat)
    (entries : ∀ k < replica.kvSize, replica.kvStore.entries[k]? = some (syntheticEntry k)) :
    HashChained replica ↔ Links replica.kvSize.toNat := by
  have present : ∀ k < replica.kvSize.toNat,
      replica.kvStore.log k = some (syntheticEntry (UInt64.ofNat k)) := by
    intro k inside
    apply entries
    rw [UInt64.lt_iff_toNat_lt, UInt64.toNat_ofNat_of_lt' (inside.trans replica.kvSize.toNat_lt)]
    exact inside
  rw [HashChained, chained_iff_of_present nonempty present]
  constructor
  · rintro ⟨_, linked⟩
    right
    constructor
    · exact le_of_linked injective linked
    · intro k inside
      exact (linked k inside).symm
  · intro links
    constructor
    · rfl
    · intro k inside
      rcases links with short | ⟨_, linked⟩
      · omega
      · exact (linked k inside).symm

/-- The entry at index 0, if there is one, carries zeros.  It may outlive the log: an
empty history leaves it in the store. -/
def StartsAtZero (replica : Replica MemKvStore) : Prop :=
  ∀ entry, replica.kvStore.entries[(0 : UInt64)]? = some entry → entry.prevHash = Hash.zero

/-- A log without entries is a chain when what is left at index 0 carries zeros. -/
theorem hashChained_of_empty {replica : Replica MemKvStore} (starts : StartsAtZero replica)
    (empty : replica.kvSize.toNat = 0) : HashChained replica := by
  constructor
  · intro k inside
    omega
  · exact starts
  · intro k _ _ inside
    omega

namespace StartsAtZero

variable {replica next : Replica MemKvStore}

theorem of_rebuild {rebuilt : MemKvStore} {count : Nat}
    (rebuilds : rebuildFromEntries replica.kvStore (syntheticEntries count) = .ok rebuilt)
    (store_eq : next.kvStore = rebuilt) : StartsAtZero next := by
  intro entry atFirst
  rw [store_eq, getElem?_of_rebuild rebuilds] at atFirst
  split at atFirst
  · cases atFirst
    rfl
  · contradiction

theorem of_mergedStore {merged : MemKvStore} {historyHash : UInt64}
    (starts : StartsAtZero replica)
    (installed : mergedStore replica.kvStore historyHash = some merged)
    (store_eq : next.kvStore = merged) : StartsAtZero next := by
  unfold mergedStore at installed
  split at installed
  · exact of_rebuild (ok_of_toOption_eq_some installed) store_eq
  · cases installed
    rw [StartsAtZero, store_eq]
    exact starts

/-- Every handler keeps zeros at index 0. -/
theorem of_perform {input : Input} {cue : Cue} {effects : List Effect}
    (starts : StartsAtZero replica) (guard : Guard input replica cue)
    (performs : perform replica cue = some (next, effects)) : StartsAtZero next := by
  cases cue with
  | speculate logIdx =>
      rcases guard with ⟨_, msg, _, guard⟩
      rcases canSpeculate_eq_some_iff.mp guard with ⟨_, _, rfl⟩
      rcases handleSpeculate_eq_some performs with ⟨_, _, _, written, _, _, rfl, _⟩
      cases written
      intro entry atFirst
      rw [MemKvStore.getElem?_insert] at atFirst
      split at atFirst
      next empty =>
        cases atFirst
        simp [newEntry, ← empty]
      next => exact starts entry atFirst
  | stateReply chkptIdx =>
      rcases handleStateReply_eq_some performs with ⟨_, _, rebuilds, _, rfl, _⟩
      exact of_rebuild rebuilds rfl
  | applyRepair historyHash =>
      rcases handleApplyRepair_eq_some performs with ⟨_, _, _, installed, rfl, _⟩
      exact starts.of_mergedStore installed rfl
  | _ =>
      obtain ⟨_, store_eq⟩ := log_of_perform rfl performs
      rw [StartsAtZero, store_eq]
      exact starts

theorem of_visits {config : Config} {nodeId : NodeId} {history : History MemKvStore}
    (run : LocalRun config nodeId MemKvStore.new history) (visits : history.Visits replica) :
    StartsAtZero replica := by
  refine run.visits_invariant ?_ ?_ ?_ visits
  · intro entry atFirst
    simp [Replica.new, MemKvStore.new] at atFirst
  · intro replica msg starts
    rw [StartsAtZero, Replica.store_kvStore]
    exact starts
  · intro input replica cue next effects starts guard performs
    exact starts.of_perform guard performs

end StartsAtZero

/-- The log that state transfer rebuilds is a chain exactly when its entries link. -/
theorem hashChained_of_stateReply (injective : Function.Injective EntryHasher.entryHash)
    {replica next : Replica MemKvStore} {chkptIdx : UInt64} {effects : List Effect}
    (handled : handleStateReply replica chkptIdx = some (next, effects)) :
    HashChained next ↔ Links (chkptIdx.toNat + 1) := by
  rcases handleStateReply_eq_some handled with ⟨_, kvSize, rebuilds, grown, rfl, _⟩
  have size_eq : kvSize.toNat = chkptIdx.toNat + 1 := toNat_of_addU64 grown
  rw [← size_eq]
  apply hashChained_iff_of_synthetic injective
  · show 0 < kvSize.toNat
    omega
  · intro k inside
    rw [getElem?_of_rebuild rebuilds, if_pos]
    exact size_eq ▸ UInt64.lt_iff_toNat_lt.mp inside

/-- The log that a merged history installs is a chain exactly when its entries link. -/
theorem hashChained_of_applyRepair (injective : Function.Injective EntryHasher.entryHash)
    {replica next : Replica MemKvStore} (starts : StartsAtZero replica) {historyHash : UInt64}
    {effects : List Effect}
    (handled : handleApplyRepair replica historyHash = some (next, effects)) :
    HashChained next ↔ Links historyHash.toNat := by
  rcases handleApplyRepair_eq_some handled with ⟨merged, _, _, installed, next_eq, _⟩
  have size_eq : next.kvSize = historyHash := by rw [next_eq]
  have store_eq : next.kvStore = merged := by rw [next_eq]
  rcases Nat.eq_zero_or_pos historyHash.toNat with empty | nonempty
  · have chained : HashChained next :=
      hashChained_of_empty (starts.of_mergedStore installed store_eq) (size_eq ▸ empty)
    have links : Links historyHash.toNat := .inl (by omega)
    exact iff_of_true chained links
  · rw [← size_eq]
    apply hashChained_iff_of_synthetic injective
    · rw [size_eq]
      exact nonempty
    · rw [size_eq, store_eq]
      exact entries_of_mergedStore installed

/-- In every state of a run, the log that a rebuild leaves is a hash chain exactly when
its synthetic entries link. -/
theorem rebuilt_chain_iff (injective : Function.Injective EntryHasher.entryHash)
    {config : Config} {nodeId : NodeId} {history : History MemKvStore}
    (run : LocalRun config nodeId MemKvStore.new history) {replica : Replica MemKvStore}
    (visits : history.Visits replica) :
    (∀ chkptIdx next effects, handleStateReply replica chkptIdx = some (next, effects) →
      (HashChained next ↔ Links (chkptIdx.toNat + 1))) ∧
    ∀ historyHash next effects, handleApplyRepair replica historyHash = some (next, effects) →
      (HashChained next ↔ Links historyHash.toNat) := by
  constructor
  · intro chkptIdx next effects handled
    exact hashChained_of_stateReply injective handled
  · intro historyHash next effects handled
    exact hashChained_of_applyRepair injective (.of_visits run visits) handled

end Replicas

/-! ## A transferred log that is no chain -/

section Transferred

attribute [local instance] plainHasher

/-- A replica aligns and is told of a checkpoint at index 1. -/
def transferInputs : List Input :=
  [.message .greatest (.checkpoint "r0" 0 0 Hash.zero),
    .message .greatest (.stateReply "r0" 1 Hash.zero)]

def transferredHistory : History MemKvStore :=
  (execute History.next (History.start (Config.forTest 1 0 0) "r0" MemKvStore.new)
    transferInputs).get (by decide +kernel)

theorem localRun_transferredHistory :
    LocalRun (Config.forTest 1 0 0) "r0" MemKvStore.new transferredHistory :=
  reachable_of_execute (Option.some_get _).symm

theorem exists_stateReply_transferredHistory :
    ∃ call ∈ transferredHistory.calls, ∃ firing ∈ call.cues, firing.2 = .stateReply 1 ∧
      (handleStateReply firing.1 1).isSome = true := by
  decide +kernel

/-- The first entry does not hash to the byte 1 repeated. -/
theorem not_links_two : ¬Links 2 := by
  rintro (short | ⟨_, linked⟩)
  · omega
  · exact absurd (linked 0 (by omega)) (by decide)

/-- Entry 1 carries the byte 1 repeated, not the hash of entry 0. -/
theorem rebuilt_chain_broken :
    ¬∀ [EntryHasher], Function.Injective EntryHasher.entryHash →
      ∀ (config : Config) (nodeId : NodeId) (history : History MemKvStore),
        LocalRun config nodeId MemKvStore.new history → ∀ replica, history.Visits replica →
        (∀ chkptIdx next effects, handleStateReply replica chkptIdx = some (next, effects) →
          HashChained next) ∧
        ∀ historyHash next effects,
          handleApplyRepair replica historyHash = some (next, effects) → HashChained next := by
  intro chained
  rcases exists_stateReply_transferredHistory with
    ⟨call, callMem, ⟨replica, cue⟩, fires, rfl, done⟩
  rcases Option.isSome_iff_exists.mp done with ⟨⟨next, effects⟩, handled⟩
  have visits : transferredHistory.Visits replica := .inr ⟨call, callMem, _, fires⟩
  have claimed := (chained plainHasher_injective _ _ _ localRun_transferredHistory replica
    visits).1 1 next effects handled
  exact not_links_two ((hashChained_of_stateReply plainHasher_injective handled).mp claimed)

theorem rebuilt_chain_iff_transferred :
    ∃ replica next effects, transferredHistory.Visits replica ∧
      handleStateReply replica 1 = some (next, effects) ∧ (HashChained next ↔ Links 2) := by
  rcases exists_stateReply_transferredHistory with
    ⟨call, callMem, ⟨replica, cue⟩, fires, rfl, done⟩
  rcases Option.isSome_iff_exists.mp done with ⟨⟨next, effects⟩, handled⟩
  have visits : transferredHistory.Visits replica := .inr ⟨call, callMem, _, fires⟩
  exact ⟨replica, next, effects, visits, handled,
    (rebuilt_chain_iff plainHasher_injective localRun_transferredHistory visits).1 1 next effects
      handled⟩

end Transferred

end Raspen
