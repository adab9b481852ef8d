import Raspen.Storage.Backends
import Raspen.Storage.FailedRebuild

/-!
# The checkpoint beside the log

Both backends also hold the index and the hash of a checkpoint, RocksDB in the column
family of its size counter.  The two do not meet: what is written to the log leaves the
checkpoint alone, even when the call fails, and the other way round.  So the backends
answer alike in their whole interface.
-/

namespace Raspen

open Bincode RocksKvStore

/-- A log store that holds a checkpoint as well. -/
class ChkptStoreOps (S : Type) extends KvStoreOps S where
  getChkptIdx : S → Except String UInt64
  setChkptIdx : S → UInt64 → Except String S
  getChkptHash : S → Except String Hash
  setChkptHash : S → Hash → Except String S

/-- A write to the log or to the checkpoint. -/
inductive KvOp
  | log (op : StoreOp)
  | setChkptIdx (idx : UInt64)
  | setChkptHash (hash : Hash)

namespace KvOp

/-- No index is the last one, and a digest has its 32 bytes. -/
def Valid : KvOp → Prop
  | log op => ∀ idx ∈ op.indices, idx < u64Max
  | setChkptIdx _ => True
  | setChkptHash hash => hash.length = 32

variable {S : Type} [ChkptStoreOps S]

def apply (store : S) : KvOp → Except String S
  | log op => op.apply store
  | setChkptIdx idx => ChkptStoreOps.setChkptIdx store idx
  | setChkptHash hash => ChkptStoreOps.setChkptHash store hash

/-- Apply the writes in their order, up to the first that fails. -/
def run (ops : List KvOp) (store : S) : Except String S :=
  ops.foldlM apply store

end KvOp

/-! ## In memory -/

/-- The entries with the checkpoint. -/
structure MemInner extends MemKvStore where
  chkptIdx : UInt64
  chkptHash : Hash

namespace MemInner

def new : MemInner :=
  ⟨MemKvStore.new, 0, Hash.zero⟩

/-- The state after a write to the entries. -/
def withLog (inner : MemInner) (log : MemKvStore) : MemInner :=
  { inner with toMemKvStore := log }

instance [EntryHasher] : ChkptStoreOps MemInner where
  get inner := KvStoreOps.get inner.toMemKvStore
  put inner idx entry := (KvStoreOps.put inner.toMemKvStore idx entry).map inner.withLog
  size inner := KvStoreOps.size inner.toMemKvStore
  topHash inner := KvStoreOps.topHash inner.toMemKvStore
  hashAt inner := KvStoreOps.hashAt inner.toMemKvStore
  rebuildFromEntries inner entries :=
    (KvStoreOps.rebuildFromEntries inner.toMemKvStore entries).map inner.withLog
  getChkptIdx inner := .ok inner.chkptIdx
  setChkptIdx inner idx := .ok { inner with chkptIdx := idx }
  getChkptHash inner := .ok inner.chkptHash
  setChkptHash inner hash := .ok { inner with chkptHash := hash }

theorem apply_log [EntryHasher] (inner : MemInner) (op : StoreOp) :
    op.apply inner = (op.apply inner.toMemKvStore).map inner.withLog := by
  cases op <;> rfl

end MemInner

/-! ## On disk -/

namespace RocksKvStore

/-- The key `b"chkpt_idx"`. -/
def metaChkptIdx : List UInt8 :=
  [99, 104, 107, 112, 116, 95, 105, 100, 120]

/-- The key `b"chkpt_hash"`. -/
def metaChkptHash : List UInt8 :=
  [99, 104, 107, 112, 116, 95, 104, 97, 115, 104]

/-- A single write into the "meta" column family. -/
def putMetaCf (fault : Option String) (key value : List UInt8) : Action Unit :=
  Action.modify fault fun store => store.applyWrite (.putMeta key value)

def writeMetaU64 [Bincode UInt64] (fault : Option String) (key : List UInt8) (value : UInt64) :
    Action Unit := do
  let encoded ← Action.attempt (encode value)
  putMetaCf fault key encoded

def getChkptIdx [Bincode UInt64] (store : RocksKvStore) : Except String UInt64 :=
  store.readMetaU64 metaChkptIdx

def setChkptIdx [Bincode UInt64] (fault : Option String) (idx : UInt64) : Action Unit :=
  writeMetaU64 fault metaChkptIdx idx

def getChkptHash [Bincode Hash] (store : RocksKvStore) : Except String Hash :=
  match store.metaCf[metaChkptHash]? with
  | some bytes => decode bytes
  | none => .ok Hash.zero

def setChkptHash [Bincode Hash] (fault : Option String) (hash : Hash) : Action Unit := do
  let encoded ← Action.attempt (encode hash)
  putMetaCf fault metaChkptHash encoded

/-- The backend while no write fails. -/
instance [Bincode UInt64] [Bincode KvEntry] [Bincode Hash] [EntryHasher] :
    ChkptStoreOps RocksKvStore where
  getChkptIdx := getChkptIdx
  setChkptIdx store idx := outcome ((setChkptIdx .none idx).runOn store)
  getChkptHash := getChkptHash
  setChkptHash store hash := outcome ((setChkptHash .none hash).runOn store)

theorem eq_of_outcome_eq_ok {ran : Option (Except String Unit × RocksKvStore)}
    {store : RocksKvStore} (done : outcome ran = .ok store) : ran = some (.ok (), store) := by
  match ran, done with
  | some (.ok (), _), rfl => rfl

/-! ## What a call leaves alone -/

namespace Action

variable {α β γ : Type} {view : RocksKvStore → γ}

/-- No outcome of the call changes what `view` shows of the database. -/
def Keeps (view : RocksKvStore → γ) (action : Action α) : Prop :=
  ∀ store store' result, action.runOn store = some (result, store') → view store' = view store

theorem ReadOnly.keeps {action : Action α} (readOnly : action.ReadOnly) : action.Keeps view := by
  intro store store' result ran
  rw [readOnly _ _ _ ran]

/-- What the first call returns decides what the second one keeps. -/
theorem Keeps.bind_of {P : α → Prop} {action : Action α} {next : α → Action β}
    (first : action.Keeps view)
    (returns : ∀ store store' value, action.runOn store = some (.ok value, store') → P value)
    (rest : ∀ value, P value → (next value).Keeps view) : (action >>= next).Keeps view := by
  intro store store' result ran
  cases result with
  | error e =>
      rcases runOn_bind_eq_error ran with failed | ⟨value, middle, ranFirst, ranRest⟩
      · exact first _ _ _ failed
      · exact (rest value (returns _ _ _ ranFirst) _ _ _ ranRest).trans (first _ _ _ ranFirst)
  | ok value =>
      rcases runOn_bind_eq_ok ran with ⟨value, middle, ranFirst, ranRest⟩
      exact (rest value (returns _ _ _ ranFirst) _ _ _ ranRest).trans (first _ _ _ ranFirst)

theorem Keeps.bind {action : Action α} {next : α → Action β} (first : action.Keeps view)
    (rest : ∀ value, (next value).Keeps view) : (action >>= next).Keeps view :=
  .bind_of (P := fun _ => True) first (fun _ _ _ _ => trivial) fun value _ => rest value

theorem Keeps.modify {change : RocksKvStore → RocksKvStore}
    (same : ∀ store, view (change store) = view store) (fault : Option String) :
    (modify fault change).Keeps view := by
  intro store store' result ran
  cases fault <;> cases ran
  · exact same store
  · rfl

end Action

open Raspen.RocksKvStore.Action

/-- The value under a key of the "meta" column family. -/
def metaAt (key : List UInt8) (store : RocksKvStore) : Option (List UInt8) :=
  store.metaCf[key]?

/-- The write goes elsewhere than to this key of the "meta" column family. -/
def BatchWrite.Spares (key : List UInt8) : BatchWrite → Prop
  | put _ _ => True
  | putMeta other _ => other ≠ key

theorem metaAt_putMeta_self (store : RocksKvStore) (key value : List UInt8) :
    metaAt key (store.applyWrite (.putMeta key value)) = some value :=
  Std.ExtTreeMap.getElem?_insert_self

theorem metaAt_putMeta_of_ne {key other : List UInt8} (different : other ≠ key)
    (store : RocksKvStore) (value : List UInt8) :
    metaAt key (store.applyWrite (.putMeta other value)) = metaAt key store := by
  have elsewhere : ¬compare other key = .eq := by
    rw [Std.compare_eq_iff_eq]
    exact different
  rw [metaAt, applyWrite, Std.ExtTreeMap.getElem?_insert, if_neg elsewhere, metaAt]

theorem metaAt_applyWrite {key : List UInt8} {entry : BatchWrite} (spares : entry.Spares key)
    (store : RocksKvStore) : metaAt key (store.applyWrite entry) = metaAt key store := by
  cases entry with
  | put _ _ => rfl
  | putMeta other value => exact metaAt_putMeta_of_ne spares store value

theorem metaAt_applyBatch {key : List UInt8} {batch : WriteBatch}
    (spares : ∀ entry ∈ batch, entry.Spares key) (store : RocksKvStore) :
    metaAt key (store.applyBatch batch) = metaAt key store := by
  induction batch generalizing store with
  | nil => rfl
  | cons entry batch ih =>
      have rest := ih (fun other otherMem => spares other (List.mem_cons_of_mem _ otherMem))
        (store.applyWrite entry)
      exact rest.trans (metaAt_applyWrite (spares entry List.mem_cons_self) store)

theorem readMetaU64_eq [Bincode UInt64] (store : RocksKvStore) (key : List UInt8) :
    store.readMetaU64 key = match metaAt key store with
      | some bytes => decode bytes
      | none => .ok 0 :=
  rfl

theorem getChkptHash_eq [Bincode Hash] (store : RocksKvStore) :
    store.getChkptHash = match metaAt metaChkptHash store with
      | some bytes => decode bytes
      | none => .ok Hash.zero :=
  rfl

section Log

variable [Bincode UInt64] [Bincode KvEntry] {key : List UInt8} (other : metaKvSize ≠ key)
include other

/-- Writing an entry keeps all metadata but the size, whatever becomes of it. -/
theorem keeps_put (faults : Faults) (idx : UInt64) (entry : KvEntry) :
    (put faults idx entry).Keeps (metaAt key) := by
  apply Keeps.bind (ReadOnly.attempt _).keeps
  intro value
  apply Keeps.bind (ReadOnly.read _).keeps
  intro currentSize
  apply Keeps.bind (ReadOnly.add _ _).keeps
  intro size
  dsimp only
  split
  · apply Keeps.bind (ReadOnly.attempt _).keeps
    intro sizeBytes
    apply Keeps.modify
    apply metaAt_applyBatch
    simp [BatchWrite.Spares, other]
  · apply Keeps.modify
    apply metaAt_applyBatch
    simp [BatchWrite.Spares]

omit [Bincode UInt64] other in
/-- The loop of a rebuild puts entries only into its batch. -/
theorem spares_rebuildLoop {entries : List (UInt64 × KvEntry)} {acc value : WriteBatch × UInt64}
    {store store' : RocksKvStore} (spares : ∀ entry ∈ acc.1, entry.Spares key)
    (ran : (entries.foldlM rebuildStep acc).runOn store = some (.ok value, store')) :
    ∀ entry ∈ value.1, entry.Spares key := by
  induction entries generalizing acc store with
  | nil =>
      cases ran
      exact spares
  | cons item entries ih =>
      rw [List.foldlM_cons] at ran
      rcases runOn_bind_eq_ok ran with ⟨next, middle, turned, rest⟩
      rcases runOn_bind_eq_ok turned with ⟨bytes, _, _, added⟩
      rcases runOn_bind_eq_ok added with ⟨size, _, _, returned⟩
      cases returned
      apply ih _ rest
      intro entry entryMem
      rcases List.mem_append.mp entryMem with old | new
      · exact spares entry old
      · rw [List.mem_singleton.mp new]
        trivial

/-- So does a rebuild. -/
theorem keeps_rebuildFromEntries (faults : Faults) (entries : List (UInt64 × KvEntry)) :
    (rebuildFromEntries faults entries).Keeps (metaAt key) := by
  apply Keeps.bind
  · apply Keeps.modify
    intro store
    rfl
  · intro _
    apply Keeps.bind_of (P := fun filled => ∀ entry ∈ filled.1, entry.Spares key)
    · exact (ReadOnly.foldlM readOnly_rebuildStep entries _).keeps
    · intro store store' value ran
      exact spares_rebuildLoop (by simp) ran
    · intro filled spares
      apply Keeps.bind (ReadOnly.attempt _).keeps
      intro sizeBytes
      apply Keeps.modify
      apply metaAt_applyBatch
      intro entry entryMem
      rcases List.mem_append.mp entryMem with old | new
      · exact spares entry old
      · rw [List.mem_singleton.mp new]
        exact other

/-- A write to the log keeps all metadata but the size. -/
theorem metaAt_of_apply [EntryHasher] {store store' : RocksKvStore} {op : StoreOp}
    (applied : op.apply store = .ok store') : metaAt key store' = metaAt key store := by
  cases op with
  | put idx entry => exact keeps_put other .none idx entry _ _ _ (eq_of_outcome_eq_ok applied)
  | rebuildFromEntries entries =>
      exact keeps_rebuildFromEntries other .none entries _ _ _ (eq_of_outcome_eq_ok applied)

end Log

/-- Setting the index writes one value that reads back as the index. -/
theorem runOn_setChkptIdx [Bincode UInt64] (numberCodec : RoundTrips UInt64) (store : RocksKvStore)
    (idx : UInt64) :
    ∃ bytes, decode bytes = .ok idx ∧
      (setChkptIdx .none idx).runOn store =
        some (.ok (), store.applyWrite (.putMeta metaChkptIdx bytes)) := by
  obtain ⟨bytes, encoded, decoded⟩ := numberCodec.exists_encode idx
  refine ⟨bytes, decoded, ?_⟩
  rw [setChkptIdx, writeMetaU64, runOn_bind (runOn_attempt encoded)]
  rfl

/-- Setting the hash does likewise. -/
theorem runOn_setChkptHash [Bincode Hash] {hash : Hash}
    (readBack : (encode hash >>= decode) = .ok hash) (store : RocksKvStore) :
    ∃ bytes, decode bytes = .ok hash ∧
      (setChkptHash .none hash).runOn store =
        some (.ok (), store.applyWrite (.putMeta metaChkptHash bytes)) := by
  cases encoded : encode hash with
  | error e =>
      rw [encoded] at readBack
      contradiction
  | ok bytes =>
      rw [encoded] at readBack
      refine ⟨bytes, readBack, ?_⟩
      rw [setChkptHash, runOn_bind (runOn_attempt encoded)]
      rfl

end RocksKvStore

/-! ## Both backends -/

/-- Two stores that answer every query alike, those for the checkpoint included. -/
structure AnswerFully {S T : Type} [ChkptStoreOps S] [ChkptStoreOps T] (store : S) (other : T) :
    Prop extends AnswerAlike store other where
  chkptIdx : ChkptStoreOps.getChkptIdx store = ChkptStoreOps.getChkptIdx other
  chkptHash : ChkptStoreOps.getChkptHash store = ChkptStoreOps.getChkptHash other

section Interface

variable [EntryHasher] [Bincode UInt64] [Bincode KvEntry] [Bincode Hash]

/-- The database is what RocksDB keeps for the log and the checkpoint in memory. -/
structure PersistsFully (rocks : RocksKvStore) (inner : MemInner) : Prop where
  log : Persists rocks inner.toMemKvStore
  chkptIdx : rocks.getChkptIdx = .ok inner.chkptIdx
  chkptHash : rocks.getChkptHash = .ok inner.chkptHash

namespace PersistsFully

variable {inner : MemInner} {rocks : RocksKvStore}

theorem empty : PersistsFully RocksKvStore.new MemInner.new where
  log := Persists.empty
  chkptIdx := rfl
  chkptHash := rfl

/-- A write to other metadata than the size keeps the log. -/
theorem putMeta (persists : PersistsFully rocks inner) {key bytes : List UInt8}
    (other : key ≠ metaKvSize) :
    Persists (rocks.applyWrite (.putMeta key bytes)) inner.toMemKvStore := by
  obtain ⟨size, read, stores⟩ := persists.log
  refine ⟨size, ?_, stores⟩
  rw [readMetaU64_eq, metaAt_putMeta_of_ne other, ← readMetaU64_eq]
  exact read

theorem answerFully (persists : PersistsFully rocks inner) : AnswerFully inner rocks where
  get := persists.log.answerAlike.get
  hashAt := persists.log.answerAlike.hashAt
  size := persists.log.answerAlike.size
  topHash := persists.log.answerAlike.topHash
  chkptIdx := persists.chkptIdx.symm
  chkptHash := persists.chkptHash.symm

/-- One write takes both backends from stores that agree to stores that agree. -/
theorem apply_step (entryCodec : RoundTrips KvEntry) (numberCodec : RoundTrips UInt64)
    (hashCodec : ∀ hash : Hash, hash.length = 32 → (encode hash >>= decode) = .ok hash)
    (persists : PersistsFully rocks inner) {op : KvOp} (valid : op.Valid) :
    ∃ inner' rocks', op.apply inner = .ok inner' ∧ op.apply rocks = .ok rocks' ∧
      PersistsFully rocks' inner' := by
  cases op with
  | log op =>
      obtain ⟨mem, rocks', memStep, rocksStep, log⟩ :=
        persists.log.apply_step entryCodec numberCodec op valid
      have memStep' : (KvOp.log op).apply inner = .ok (inner.withLog mem) := by
        rw [KvOp.apply, MemInner.apply_log, memStep]
        rfl
      have chkptIdx : rocks'.getChkptIdx = .ok inner.chkptIdx := by
        rw [getChkptIdx, readMetaU64_eq, metaAt_of_apply (by decide) rocksStep, ← readMetaU64_eq]
        exact persists.chkptIdx
      have chkptHash : rocks'.getChkptHash = .ok inner.chkptHash := by
        rw [getChkptHash_eq, metaAt_of_apply (by decide) rocksStep, ← getChkptHash_eq]
        exact persists.chkptHash
      exact ⟨_, rocks', memStep', rocksStep, log, chkptIdx, chkptHash⟩
  | setChkptIdx idx =>
      obtain ⟨bytes, decoded, ran⟩ := runOn_setChkptIdx numberCodec rocks idx
      have rocksStep : (KvOp.setChkptIdx idx).apply rocks =
          .ok (rocks.applyWrite (.putMeta metaChkptIdx bytes)) :=
        congrArg outcome ran
      have chkptIdx : getChkptIdx (rocks.applyWrite (.putMeta metaChkptIdx bytes)) = .ok idx := by
        rw [getChkptIdx, readMetaU64_eq, metaAt_putMeta_self]
        exact decoded
      have chkptHash : getChkptHash (rocks.applyWrite (.putMeta metaChkptIdx bytes)) =
          .ok inner.chkptHash := by
        rw [getChkptHash_eq, metaAt_putMeta_of_ne (by decide), ← getChkptHash_eq]
        exact persists.chkptHash
      exact ⟨{ inner with chkptIdx := idx }, _, rfl, rocksStep, persists.putMeta (by decide),
        chkptIdx, chkptHash⟩
  | setChkptHash hash =>
      obtain ⟨bytes, decoded, ran⟩ := runOn_setChkptHash (hashCodec hash valid) rocks
      have rocksStep : (KvOp.setChkptHash hash).apply rocks =
          .ok (rocks.applyWrite (.putMeta metaChkptHash bytes)) :=
        congrArg outcome ran
      have chkptIdx : getChkptIdx (rocks.applyWrite (.putMeta metaChkptHash bytes)) =
          .ok inner.chkptIdx := by
        rw [getChkptIdx, readMetaU64_eq, metaAt_putMeta_of_ne (by decide), ← readMetaU64_eq]
        exact persists.chkptIdx
      have chkptHash : getChkptHash (rocks.applyWrite (.putMeta metaChkptHash bytes)) =
          .ok hash := by
        rw [getChkptHash_eq, metaAt_putMeta_self]
        exact decoded
      exact ⟨{ inner with chkptHash := hash }, _, rfl, rocksStep, persists.putMeta (by decide),
        chkptIdx, chkptHash⟩

/-- A whole sequence of writes does so. -/
theorem run (entryCodec : RoundTrips KvEntry) (numberCodec : RoundTrips UInt64)
    (hashCodec : ∀ hash : Hash, hash.length = 32 → (encode hash >>= decode) = .ok hash)
    (persists : PersistsFully rocks inner) {ops : List KvOp} (valid : ∀ op ∈ ops, op.Valid) :
    ∃ inner' rocks', KvOp.run ops inner = .ok inner' ∧ KvOp.run ops rocks = .ok rocks' ∧
      PersistsFully rocks' inner' := by
  induction ops generalizing inner rocks with
  | nil => exact ⟨inner, rocks, rfl, rfl, persists⟩
  | cons op ops ih =>
      obtain ⟨innerNext, rocksNext, memStep, rocksStep, persistsNext⟩ :=
        persists.apply_step entryCodec numberCodec hashCodec (valid op List.mem_cons_self)
      obtain ⟨inner', rocks', memRun, rocksRun, persists'⟩ :=
        ih persistsNext fun other member => valid other (List.mem_cons_of_mem op member)
      have memAll : KvOp.run (op :: ops) inner = .ok inner' := by
        rw [KvOp.run, List.foldlM_cons, memStep]
        exact memRun
      have rocksAll : KvOp.run (op :: ops) rocks = .ok rocks' := by
        rw [KvOp.run, List.foldlM_cons, rocksStep]
        exact rocksRun
      exact ⟨inner', rocks', memAll, rocksAll, persists'⟩

end PersistsFully

/-- Whatever is written to the log below `u64::MAX` and to the checkpoint, in whatever
order, both backends accept it and answer every query alike afterwards. -/
theorem kvStores_interchangeable (entryCodec : RoundTrips KvEntry)
    (numberCodec : RoundTrips UInt64)
    (hashCodec : ∀ hash : Hash, hash.length = 32 → (encode hash >>= decode) = .ok hash)
    (ops : List KvOp) (valid : ∀ op ∈ ops, op.Valid) :
    ∃ inner rocks, KvOp.run ops MemInner.new = .ok inner ∧
      KvOp.run ops RocksKvStore.new = .ok rocks ∧ AnswerFully inner rocks := by
  obtain ⟨inner, rocks, memRun, rocksRun, persists⟩ :=
    PersistsFully.empty.run entryCodec numberCodec hashCodec valid
  exact ⟨inner, rocks, memRun, rocksRun, persists.answerFully⟩

end Interface

/-! ## A codec for digests -/

/-- The 32 bytes as they are. -/
@[reducible]
def plainDigest : Bincode Hash where
  encodeToVec hash := .ok hash
  decodeFromSlice bytes :=
    if 32 ≤ bytes.length then .ok (bytes.take 32, 32) else .error "UnexpectedEnd"

section Checkpointed

attribute [local instance] plainHasher plainU64 plainEntry plainDigest

theorem plainDigest_readBack (hash : Hash) (digest : hash.length = 32) :
    (encode hash >>= decode) = .ok hash := by
  have fits : 32 ≤ hash.length := digest.ge
  have whole : hash.take 32 = hash := List.take_of_length_le digest.le
  change decode hash = _
  simp only [decode, decodeFromSlice, if_pos fits, whole]
  rfl

/-- A checkpoint is recorded, the log is rebuilt, and a new checkpoint follows. -/
def checkpointing : List KvOp :=
  [.log (.put 4 ⟨1, [], Hash.zero⟩), .setChkptHash (Hash.fill 7), .setChkptIdx 4,
    .log (.rebuildFromEntries [(2, ⟨3, [], Hash.fill 1⟩)]), .setChkptIdx 2]

theorem kvStores_interchangeable_checkpointing :
    ∃ inner rocks, KvOp.run checkpointing MemInner.new = .ok inner ∧
      KvOp.run checkpointing RocksKvStore.new = .ok rocks ∧ AnswerFully inner rocks := by
  have valid : ∀ op ∈ checkpointing, op.Valid := by
    simp only [checkpointing, List.forall_mem_cons, KvOp.Valid, StoreOp.indices, List.map_cons,
      List.map_nil, List.not_mem_nil, false_implies, implies_true, and_true]
    decide
  exact kvStores_interchangeable plainEntry_roundTrips plainU64_roundTrips plainDigest_readBack
    checkpointing valid

end Checkpointed

end Raspen
