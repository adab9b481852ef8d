import Raspen.Consensus.CommittedPrefix
import Raspen.Consensus.Provenance
import Raspen.Storage.Backends

/-!
# Restarting on a database

The database outlives the replica, but the constructor never reads it: log size and
checkpoint start from zero again.  A restart is right only on a database nothing was
ever written to.
-/

namespace Raspen

open KvStoreOps Bincode RocksKvStore Raspen.Transition

theorem lt_u64Max_of_addU64 {a b : UInt64} (grown : addU64 a 1 = some b) : a < u64Max := by
  have next : b.toNat = a.toNat + 1 := toNat_of_addU64 grown
  have bound := b.toNat_lt
  rw [UInt64.lt_iff_toNat_lt]
  change a.toNat < 2 ^ 64 - 1
  omega

/-- The entries of a log of `count` synthetic entries lie below the last index. -/
theorem lt_u64Max_of_mem_syntheticEntries {count : Nat} (small : count < 2 ^ 64)
    {item : UInt64 × KvEntry} (itemMem : item ∈ syntheticEntries count) : item.1 < u64Max := by
  rcases List.mem_map.mp itemMem with ⟨k, inside, rfl⟩
  have below : k < count := List.mem_range.mp inside
  rw [UInt64.lt_iff_toNat_lt, UInt64.toNat_ofNat_of_lt' (below.trans small)]
  change k < 2 ^ 64 - 1
  omega

/-- A log of size 0 has no entries. -/
theorem absent_of_size_zero [EntryHasher] {mem : MemKvStore}
    (empty : KvStoreOps.size mem = some 0) (k : UInt64) : mem.entries[k]? = none := by
  cases last : mem.lastEntry with
  | none => exact MemKvStore.lastEntry_eq_none_iff.mp last k
  | some top =>
      simp only [KvStoreOps.size, last] at empty
      have positive := toNat_of_addU64 empty
      simp at positive

section Databases

variable [EntryHasher] [Bincode UInt64] [Bincode KvEntry]

/-- The contents of a database path: created empty, then left behind by one replica
after the other. -/
inductive Database : RocksKvStore → Prop
  | created : Database .new
  | stopped {config : Config} {nodeId : NodeId} {kvStore : RocksKvStore}
      {history : History RocksKvStore} : Database kvStore →
      LocalRun config nodeId kvStore history → Database history.replica.kvStore

/-- The replica `after` takes up the log and the checkpoint of `before`, so that the next
SPECULATE is appended behind all entries. -/
structure RestartKeeps (before after : Replica RocksKvStore) : Prop where
  size : KvStoreOps.size after.kvStore = some after.kvSize
  kvSize : after.kvSize = before.kvSize
  checkpoint : after.chkptIdx = before.chkptIdx ∧ after.chkptHash = before.chkptHash
  appends : ∀ msg logIdx, canSpeculate after msg = some logIdx →
    ∀ k entry, KvStoreOps.get after.kvStore k = .ok (some entry) → k < logIdx

/-- The database is an ordered log.  While it is empty, so are the log and the checkpoint
of the replica. -/
structure OnDatabase (replica : Replica RocksKvStore) (mem : MemKvStore) : Prop where
  persists : Persists replica.kvStore mem
  empty : (∀ k : UInt64, mem.entries[k]? = none) →
    replica.kvSize = 0 ∧ replica.chkptIdx = 0 ∧ replica.chkptHash = Hash.zero

namespace OnDatabase

variable {replica next : Replica RocksKvStore} {mem : MemKvStore}

section Codecs

variable (entryCodec : RoundTrips KvEntry) (sizeCodec : RoundTrips UInt64)
include entryCodec sizeCodec

/-- A write keeps the database a log, and not an empty one. -/
theorem write (on : OnDatabase replica mem) (op : StoreOp) {kvStore : RocksKvStore}
    (inside : ∀ idx ∈ op.indices, idx < u64Max)
    (applied : op.apply replica.kvStore = .ok kvStore)
    (store_eq : next.kvStore = kvStore)
    (written : ∀ mem', op.apply mem = .ok mem' →
      ∃ (k : UInt64) (entry : KvEntry), mem'.entries[k]? = some entry) :
    ∃ mem', OnDatabase next mem' := by
  obtain ⟨mem', rocks', memStep, rocksStep, persists⟩ :=
    on.persists.apply_step entryCodec sizeCodec op inside
  rw [applied] at rocksStep
  cases rocksStep
  rcases written mem' memStep with ⟨k, entry, atIndex⟩
  refine ⟨mem', store_eq ▸ persists, ?_⟩
  intro absent
  rw [absent k] at atIndex
  contradiction

/-- A rebuild writes at least one entry. -/
theorem rebuild (on : OnDatabase replica mem) {count : Nat} {kvStore : RocksKvStore}
    (small : count < 2 ^ 64) (nonempty : 0 < count)
    (rebuilt : rebuildFromEntries replica.kvStore (syntheticEntries count) = .ok kvStore)
    (store_eq : next.kvStore = kvStore) : ∃ mem', OnDatabase next mem' := by
  refine on.write entryCodec sizeCodec (.rebuildFromEntries (syntheticEntries count)) ?_
    rebuilt store_eq ?_
  · intro idx idxMem
    rcases List.mem_map.mp idxMem with ⟨item, itemMem, rfl⟩
    exact lt_u64Max_of_mem_syntheticEntries small itemMem
  · intro mem' memStep
    exact ⟨0, syntheticEntry 0, (getElem?_of_rebuild memStep 0).trans (if_pos nonempty)⟩

/-- Every handler keeps the database a log. -/
theorem of_perform (on : OnDatabase replica mem) {input : Input} {cue : Cue}
    {effects : List Effect} (guard : Guard input replica cue)
    (performs : perform replica cue = some (next, effects)) : ∃ mem', OnDatabase next mem' := by
  cases cue with
  | speculate logIdx =>
      rcases guard with ⟨_, msg, _, guard⟩
      rcases canSpeculate_eq_some_iff.mp guard with ⟨_, _, rfl⟩
      rcases handleSpeculate_eq_some performs with ⟨_, _, _, written, _, grown, rfl, _⟩
      refine on.write entryCodec sizeCodec (.put replica.kvSize (newEntry replica replica.kvSize))
        ?_ written rfl ?_
      · intro idx idxMem
        rw [List.mem_singleton.mp idxMem]
        exact lt_u64Max_of_addU64 grown
      · intro mem' memStep
        cases memStep
        exact ⟨replica.kvSize, _, (MemKvStore.getElem?_insert _ _ _ _).trans (if_pos rfl)⟩
  | formCheckpoint logIdx =>
      cases performs
      refine ⟨mem, on.persists, ?_⟩
      intro absent
      exact absurd (on.empty absent).1 (canFormCheckpoint_eq_some_iff.mp guard).2.1
  | stateReply chkptIdx =>
      rcases handleStateReply_eq_some performs with ⟨_, kvSize, rebuilt, grown, rfl, _⟩
      have small : chkptIdx.toNat + 1 < 2 ^ 64 := by
        rw [← UInt64.toNat_one, ← toNat_of_addU64 grown]
        exact kvSize.toNat_lt
      exact on.rebuild entryCodec sizeCodec small (Nat.succ_pos chkptIdx.toNat) rebuilt rfl
  | applyRepair historyHash =>
      rcases handleApplyRepair_eq_some performs with ⟨_, _, _, installed, rfl, _⟩
      by_cases positive : 0 < historyHash
      · rw [mergedStore, if_pos positive] at installed
        exact on.rebuild entryCodec sizeCodec historyHash.toNat_lt
          (UInt64.lt_iff_toNat_lt.mp positive) (ok_of_toOption_eq_some installed) rfl
      · rw [mergedStore, if_neg positive] at installed
        cases installed
        refine ⟨mem, on.persists, ?_⟩
        intro absent
        have isZero : historyHash = 0 := by
          simpa [UInt64.pos_iff_ne_zero] using positive
        exact ⟨isZero, (on.empty absent).2⟩
  | repairDoneCatchup round =>
      rcases perform_repairDoneCatchup_eq_some performs with ⟨_, _, rfl, _⟩
      exact ⟨mem, on.persists, on.empty⟩
  | viewChange newView =>
      rcases perform_viewChange_eq_some performs with ⟨_, _, rfl, _⟩
      exact ⟨mem, on.persists, on.empty⟩
  | _ =>
      cases performs
      exact ⟨mem, on.persists, on.empty⟩

omit entryCodec sizeCodec in
theorem store (on : OnDatabase replica mem) (msg : Message) :
    OnDatabase (replica.store msg) mem where
  persists := by simpa using on.persists
  empty := by simpa using on.empty

/-- A run that starts on a log stays on one. -/
theorem of_localRun {config : Config} {nodeId : NodeId} {kvStore : RocksKvStore}
    {history : History RocksKvStore} (persists : Persists kvStore mem)
    (run : LocalRun config nodeId kvStore history) :
    ∃ mem', OnDatabase history.replica mem' := by
  refine run.visits_invariant (P := fun replica => ∃ mem', OnDatabase replica mem')
    ⟨mem, persists, fun _ => ⟨rfl, rfl, rfl⟩⟩ ?_ ?_ (.inl rfl)
  · rintro replica msg ⟨mem', on⟩
    exact ⟨mem', on.store msg⟩
  · rintro input replica cue next effects ⟨mem', on⟩ guard performs
    exact on.of_perform entryCodec sizeCodec guard performs

end Codecs

end OnDatabase

section Restarts

variable (entryCodec : RoundTrips KvEntry) (sizeCodec : RoundTrips UInt64)
include entryCodec sizeCodec

/-- Whatever replicas ran on it, a database is a log. -/
theorem Database.persists {kvStore : RocksKvStore} (database : Database kvStore) :
    ∃ mem, Persists kvStore mem := by
  induction database with
  | created => exact ⟨_, .empty⟩
  | stopped _ run ih =>
      obtain ⟨mem, persists⟩ := ih
      obtain ⟨mem', on⟩ := OnDatabase.of_localRun entryCodec sizeCodec persists run
      exact ⟨mem', on.persists⟩

/-- A restart keeps the log and the checkpoint exactly when the store was still empty. -/
theorem restart_keeps_iff {config : Config} {nodeId : NodeId} {kvStore : RocksKvStore}
    {history : History RocksKvStore} (database : Database kvStore)
    (run : LocalRun config nodeId kvStore history) :
    RestartKeeps history.replica (Replica.new config nodeId history.replica.kvStore) ↔
      KvStoreOps.size history.replica.kvStore = some 0 := by
  constructor
  · intro keeps
    exact keeps.size
  · intro empty
    obtain ⟨mem, persists⟩ := database.persists entryCodec sizeCodec
    obtain ⟨mem', on⟩ := OnDatabase.of_localRun entryCodec sizeCodec persists run
    have alike := on.persists.answerAlike
    have absent := absent_of_size_zero (alike.size.trans empty)
    obtain ⟨noLog, noIndex, noHash⟩ := on.empty absent
    constructor
    · exact empty
    · exact noLog.symm
    · exact ⟨noIndex.symm, noHash.symm⟩
    · intro msg logIdx _ k entry atIndex
      have answer : KvStoreOps.get mem' k = .ok (some entry) := (alike.get k).trans atIndex
      have stored : mem'.entries[k]? = some entry := Except.ok.inj answer
      rw [absent k] at stored
      contradiction

end Restarts

end Databases

/-! ## A restart after one entry -/

section OneEntryLog

attribute [local instance] plainHasher plainU64 plainEntry

/-- A replica on a fresh database appends an entry and is stopped. -/
def stoppedHistory : History RocksKvStore :=
  (execute History.next (History.start (Config.forTest 1 0 0) "r0" RocksKvStore.new)
    [.message .greatest (.speculate "seq" 0 Hash.zero 0)]).get (by decide +kernel)

theorem localRun_stoppedHistory :
    LocalRun (Config.forTest 1 0 0) "r0" RocksKvStore.new stoppedHistory :=
  reachable_of_execute (Option.some_get _).symm

theorem size_stoppedHistory : KvStoreOps.size stoppedHistory.replica.kvStore = some 1 := by
  decide +kernel

/-- The restarted replica believes in an empty log and writes its next entry over the
first one. -/
theorem restart_forgets :
    ¬∀ [EntryHasher] [Bincode UInt64] [Bincode KvEntry],
      RoundTrips KvEntry → RoundTrips UInt64 →
      ∀ (config : Config) (nodeId : NodeId) (kvStore : RocksKvStore)
        (history : History RocksKvStore), Database kvStore →
        LocalRun config nodeId kvStore history →
        RestartKeeps history.replica (Replica.new config nodeId history.replica.kvStore) := by
  intro keeps
  have kept := keeps plainEntry_roundTrips plainU64_roundTrips _ _ _ _ .created
    localRun_stoppedHistory
  have differs : (1 : UInt64) = 0 := Option.some.inj (size_stoppedHistory.symm.trans kept.size)
  exact absurd differs (by decide)

theorem restart_keeps_iff_stopped :
    ¬RestartKeeps stoppedHistory.replica
      (Replica.new (Config.forTest 1 0 0) "r0" stoppedHistory.replica.kvStore) := by
  rw [restart_keeps_iff plainEntry_roundTrips plainU64_roundTrips .created
    localRun_stoppedHistory, size_stoppedHistory]
  decide

end OneEntryLog

end Raspen
