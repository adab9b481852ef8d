import Raspen.Storage.RocksKvStore

/-!
# The two backends answer alike

RocksDB keeps a copy of the ordered map under big-endian keys and, next to it, a
size counter that stays one above the highest index.  Every write keeps both, so
that whatever was written, the two backends give the same answers.
-/

namespace Raspen

open KvStoreOps Raspen.KeyOrder Bincode RocksKvStore

/-- A write to the log store. -/
inductive StoreOp
  | put (idx : UInt64) (entry : KvEntry)
  | rebuildFromEntries (entries : List (UInt64 × KvEntry))

namespace StoreOp

/-- The indices the write mentions. -/
def indices : StoreOp → List UInt64
  | put idx _ => [idx]
  | rebuildFromEntries entries => entries.map Prod.fst

variable {S : Type} [KvStoreOps S]

def apply (store : S) : StoreOp → Except String S
  | put idx entry => KvStoreOps.put store idx entry
  | rebuildFromEntries entries => KvStoreOps.rebuildFromEntries store entries

/-- Apply the writes in their order, up to the first that fails. -/
def run (ops : List StoreOp) (store : S) : Except String S :=
  ops.foldlM apply store

end StoreOp

/-- Two stores that answer every query alike. -/
structure AnswerAlike {S T : Type} [KvStoreOps S] [KvStoreOps T] (store : S) (other : T) :
    Prop where
  get : ∀ idx, KvStoreOps.get store idx = KvStoreOps.get other idx
  hashAt : ∀ idx, KvStoreOps.hashAt store idx = KvStoreOps.hashAt other idx
  size : KvStoreOps.size store = KvStoreOps.size other
  topHash : KvStoreOps.topHash store = KvStoreOps.topHash other

/-! ## What RocksDB keeps for a log -/

theorem addU64_one {idx : UInt64} (inside : idx < u64Max) : addU64 idx 1 = some (idx + 1) := by
  have small : idx.toNat < 2 ^ 64 - 1 := UInt64.lt_iff_toNat_lt.mp inside
  rw [addU64, if_pos]
  simp
  omega

theorem max_of_le {size next : UInt64} (le : size ≤ next) : max size next = next :=
  if_pos le

theorem max_of_not_lt {size next : UInt64} (notBelow : ¬size < next) : max size next = size := by
  change (if size ≤ next then next else size) = size
  split
  · rename_i le
    exact UInt64.le_antisymm (UInt64.not_lt.mp notBelow) le
  · rfl

theorem max_of_not_lt_max {size next : UInt64} (kept : ¬size < max size next) :
    max size next = size := by
  apply max_of_not_lt
  intro below
  rw [max_of_le (UInt64.le_of_lt below)] at kept
  exact kept below

section Simulation

variable [EntryHasher] [Bincode KvEntry]

omit [EntryHasher] in
/-- One turn of the loop that fills the batch. -/
theorem runOn_rebuildStep {store : RocksKvStore} {batch : WriteBatch} {maxIdx idx : UInt64}
    {entry : KvEntry} {value : List UInt8} (inside : idx < u64Max)
    (encoded : encode entry = .ok value) :
    Action.runOn (rebuildStep (batch, maxIdx) (idx, entry)) store =
      some (.ok (batch ++ [.put (entryKey idx) value], max maxIdx (idx + 1)), store) := by
  have counter : (if maxIdx < idx + 1 then idx + 1 else maxIdx) = max maxIdx (idx + 1) := by
    by_cases grows : maxIdx < idx + 1
    · rw [if_pos grows, max_of_le (UInt64.le_of_lt grows)]
    · rw [if_neg grows, max_of_not_lt grows]
  rw [rebuildStep, Action.runOn_bind (Action.runOn_attempt encoded),
    Action.runOn_bind (Action.runOn_add (addU64_one inside)), Action.runOn_pure, ← counter]

/-- `cf` and `size` are what RocksDB keeps for the log `entries`. -/
structure Stores (entries : Std.ExtTreeMap UInt64 KvEntry)
    (cf : Std.ExtTreeMap (List UInt8) (List UInt8)) (size : UInt64) : Prop where
  copy : Mirrors entryKey (fun bytes entry => decode bytes = .ok entry) entries cf
  counted : KvStoreOps.size (MemKvStore.mk entries) = some size
  bounded : ∀ idx entry, entries[idx]? = some entry → idx < u64Max

namespace Stores

variable {entries : Std.ExtTreeMap UInt64 KvEntry}
  {cf : Std.ExtTreeMap (List UInt8) (List UInt8)} {size : UInt64}

theorem empty : Stores ∅ ∅ 0 where
  copy := Mirrors.empty
  counted := rfl
  bounded idx entry atIndex := by simp at atIndex

/-- The size after a write is the old size unless the index lies beyond it. -/
theorem size_insert (stores : Stores entries cf size) {idx : UInt64} (entry : KvEntry)
    (inside : idx < u64Max) :
    KvStoreOps.size (MemKvStore.mk (entries.insert idx entry)) = some (max size (idx + 1)) := by
  have counted := stores.counted
  have next := toNat_of_addU64 (addU64_one inside)
  have last := MemKvStore.lastEntry_insert ⟨entries⟩ idx entry
  cases before : MemKvStore.lastEntry ⟨entries⟩ with
  | none =>
      simp only [before] at last
      simp only [KvStoreOps.size, before, Option.some.injEq] at counted
      simp only [KvStoreOps.size, last]
      rw [addU64_one inside, ← counted, max_of_le (UInt64.zero_le)]
  | some top =>
      obtain ⟨top, topEntry⟩ := top
      simp only [before] at last
      simp only [KvStoreOps.size, before] at counted
      have grown := toNat_of_addU64 counted
      by_cases below : idx < top
      · have smaller : ¬size < idx + 1 := by
          rw [UInt64.lt_iff_toNat_lt, next, grown]
          exact Nat.not_lt_of_lt (Nat.succ_lt_succ (UInt64.lt_iff_toNat_lt.mp below))
        rw [if_pos below] at last
        simp only [KvStoreOps.size, last]
        rw [counted, max_of_not_lt smaller]
      · have larger : size ≤ idx + 1 := by
          rw [UInt64.le_iff_toNat_le, next, grown]
          exact Nat.succ_le_succ (UInt64.le_iff_toNat_le.mp (UInt64.not_lt.mp below))
        rw [if_neg below] at last
        simp only [KvStoreOps.size, last]
        rw [addU64_one inside, max_of_le larger]

/-- Writing one entry on both sides moves the counter to the new size. -/
theorem insert (stores : Stores entries cf size) {idx : UInt64} {entry : KvEntry}
    {bytes : List UInt8} (inside : idx < u64Max) (decoded : decode bytes = .ok entry) :
    Stores (entries.insert idx entry) (cf.insert (entryKey idx) bytes) (max size (idx + 1)) where
  copy := stores.copy.insert compare_entryKey idx decoded
  counted := stores.size_insert entry inside
  bounded other kept atOther := by
    rw [MemKvStore.getElem?_insert] at atOther
    by_cases same : other = idx
    · exact same ▸ inside
    · rw [if_neg same] at atOther
      exact stores.bounded other kept atOther

/-- The deletion from index 0 to below `u64::MAX` clears the log. -/
theorem deleteRange_eq_empty (stores : Stores entries cf size) :
    deleteRange (entryKey 0) (entryKey u64Max) cf = ∅ := by
  apply KeyOrder.deleteRange_eq_empty
  intro code bytes atCode
  obtain ⟨idx, entry, rfl, atIndex⟩ := stores.copy.reflected code bytes atCode
  rw [compare_entryKey, compare_entryKey]
  constructor
  · exact Std.isLE_compare.mpr UInt64.zero_le
  · exact Std.compare_eq_lt.mpr (stores.bounded idx entry atIndex)

/-- The loop that fills the batch: applied to a cleared database, the batch gives
the entries written so far, and the counter is their size. -/
theorem runOn_rebuildLoop (entryCodec : RoundTrips KvEntry) {cleared : RocksKvStore}
    {entries : List (UInt64 × KvEntry)} (inside : ∀ item ∈ entries, item.1 < u64Max)
    {kept : Std.ExtTreeMap UInt64 KvEntry} {batch : WriteBatch} {maxIdx : UInt64}
    (stores : Stores kept (cleared.applyBatch batch).defaultCf maxIdx) :
    ∃ batch' maxIdx',
      Action.runOn (entries.foldlM rebuildStep (batch, maxIdx)) cleared =
        some (.ok (batch', maxIdx'), cleared) ∧
      Stores (entries.foldl (fun kept item => kept.insert item.1 item.2) kept)
        (cleared.applyBatch batch').defaultCf maxIdx' := by
  induction entries generalizing kept batch maxIdx with
  | nil => exact ⟨batch, maxIdx, rfl, stores⟩
  | cons item entries ih =>
      obtain ⟨value, encoded, decoded⟩ := entryCodec.exists_encode item.2
      have itemInside := inside item List.mem_cons_self
      have written : Stores (kept.insert item.1 item.2)
          (cleared.applyBatch (batch ++ [.put (entryKey item.1) value])).defaultCf
          (max maxIdx (item.1 + 1)) := by
        simp only [applyBatch, List.foldl_append, List.foldl_cons, List.foldl_nil]
        exact stores.insert itemInside decoded
      rw [List.foldlM_cons, Action.runOn_bind (runOn_rebuildStep itemInside encoded)]
      exact ih (fun other member => inside other (List.mem_cons_of_mem item member)) written

end Stores

/-! ## One write on each backend -/

variable [Bincode UInt64]

/-- The database is what RocksDB keeps for the log in memory. -/
def Persists (rocks : RocksKvStore) (mem : MemKvStore) : Prop :=
  ∃ size, rocks.readMetaU64 metaKvSize = .ok size ∧ Stores mem.entries rocks.defaultCf size

namespace Persists

variable {mem : MemKvStore} {rocks : RocksKvStore}

theorem empty : Persists RocksKvStore.new MemKvStore.new :=
  ⟨0, rfl, Stores.empty⟩

/-- The two backends answer alike. -/
theorem answerAlike (persists : Persists rocks mem) : AnswerAlike mem rocks := by
  obtain ⟨size, read, stores⟩ := persists
  have sameEntry : ∀ idx, KvStoreOps.get mem idx = KvStoreOps.get rocks idx := by
    intro idx
    cases atIndex : mem.entries[idx]? with
    | none =>
        have atCode := stores.copy.getElem?_eq_none compare_entryKey atIndex
        simp only [KvStoreOps.get, RocksKvStore.get, atIndex, atCode]
    | some entry =>
        obtain ⟨bytes, atCode, decoded⟩ := stores.copy.present idx entry atIndex
        simp only [KvStoreOps.get, RocksKvStore.get, atIndex, atCode, decoded]
        rfl
  constructor
  case get => exact sameEntry
  case hashAt =>
    intro idx
    have same := sameEntry idx
    simp only [KvStoreOps.get] at same
    simp only [KvStoreOps.hashAt, RocksKvStore.hashAt, ← same]
    cases mem.entries[idx]? <;> rfl
  case size =>
    have counted : KvStoreOps.size mem = some size := stores.counted
    rw [counted]
    simp only [KvStoreOps.size, RocksKvStore.size, read]
  case topHash =>
    cases last : KeyOrder.lastEntry mem.entries with
    | none =>
        have lastMem : mem.lastEntry = none := last
        have lastRocks := stores.copy.lastEntry_eq_none last
        simp only [KvStoreOps.topHash, RocksKvStore.topHash, lastMem, lastRocks]
        rfl
    | some top =>
        have lastMem : mem.lastEntry = some top := last
        obtain ⟨bytes, lastRocks, decoded⟩ := stores.copy.lastEntry_eq_some compare_entryKey last
        simp only [KvStoreOps.topHash, RocksKvStore.topHash, lastMem, lastRocks, decoded]
        rfl

section Steps

variable (entryCodec : RoundTrips KvEntry) (sizeCodec : RoundTrips UInt64)
include entryCodec sizeCodec

theorem runOn_put (persists : Persists rocks mem) {idx : UInt64} (entry : KvEntry)
    (inside : idx < u64Max) :
    ∃ rocks', (RocksKvStore.put .none idx entry).runOn rocks = some (.ok (), rocks') ∧
      Persists rocks' ⟨mem.entries.insert idx entry⟩ := by
  obtain ⟨size, read, stores⟩ := persists
  obtain ⟨value, encoded, decoded⟩ := entryCodec.exists_encode entry
  have written := stores.insert inside decoded
  rw [RocksKvStore.put, Action.runOn_bind (Action.runOn_attempt encoded),
    Action.runOn_bind (Action.runOn_read read),
    Action.runOn_bind (Action.runOn_add (addU64_one inside))]
  by_cases grows : size < max size (idx + 1)
  · obtain ⟨sizeBytes, sizeEncoded, sizeDecoded⟩ := sizeCodec.exists_encode (max size (idx + 1))
    rw [if_pos grows, Action.runOn_bind (Action.runOn_attempt sizeEncoded)]
    exact ⟨_, Action.runOn_modify _ rocks, _, readMetaU64_putMeta _ sizeDecoded, written⟩
  · rw [if_neg grows]
    rw [max_of_not_lt_max grows] at written
    exact ⟨_, Action.runOn_modify _ rocks, size, read, written⟩

theorem runOn_rebuildFromEntries (persists : Persists rocks mem) {entries : List (UInt64 × KvEntry)}
    (inside : ∀ item ∈ entries, item.1 < u64Max) :
    ∃ rocks', (RocksKvStore.rebuildFromEntries .none entries).runOn rocks = some (.ok (), rocks') ∧
      Persists rocks' ⟨entries.foldl (fun kept item => kept.insert item.1 item.2) ∅⟩ := by
  obtain ⟨_, _, stores⟩ := persists
  have cleared : Stores ∅ (RocksKvStore.applyBatch ⟨∅, rocks.metaCf⟩ []).defaultCf 0 := Stores.empty
  obtain ⟨batch, maxIdx, filled, written⟩ := cleared.runOn_rebuildLoop entryCodec inside
  obtain ⟨sizeBytes, sizeEncoded, sizeDecoded⟩ := sizeCodec.exists_encode maxIdx
  have deleted : Action.runOn (deleteRangeCf none (entryKey 0) (entryKey u64Max)) rocks =
      some (.ok (), ⟨∅, rocks.metaCf⟩) := by
    rw [deleteRangeCf, Action.runOn_modify, stores.deleteRange_eq_empty]
  rw [RocksKvStore.rebuildFromEntries, Faults.none, Action.runOn_bind deleted,
    Action.runOn_bind filled, Action.runOn_bind (Action.runOn_attempt sizeEncoded)]
  have batchSplit : (RocksKvStore.mk ∅ rocks.metaCf).applyBatch
      (batch ++ [.putMeta metaKvSize sizeBytes]) =
        ((RocksKvStore.mk ∅ rocks.metaCf).applyBatch batch).applyWrite
          (.putMeta metaKvSize sizeBytes) := by
    simp only [applyBatch, List.foldl_append, List.foldl_cons, List.foldl_nil]
  rw [write, Action.runOn_modify, batchSplit]
  exact ⟨_, rfl, maxIdx, readMetaU64_putMeta _ sizeDecoded, written⟩

/-- One write takes both backends from stores that agree to stores that agree. -/
theorem apply_step (persists : Persists rocks mem) (op : StoreOp)
    (inside : ∀ idx ∈ op.indices, idx < u64Max) :
    ∃ mem' rocks', op.apply mem = .ok mem' ∧ op.apply rocks = .ok rocks' ∧
      Persists rocks' mem' := by
  cases op with
  | put idx entry =>
      obtain ⟨rocks', ran, persists'⟩ :=
        persists.runOn_put entryCodec sizeCodec entry (inside idx List.mem_cons_self)
      have applied : (StoreOp.put idx entry).apply rocks = .ok rocks' := by
        simp only [StoreOp.apply, KvStoreOps.put, ran, outcome]
      exact ⟨_, rocks', rfl, applied, persists'⟩
  | rebuildFromEntries entries =>
      have insideItems : ∀ item ∈ entries, item.1 < u64Max :=
        fun item member => inside item.1 (List.mem_map_of_mem member)
      obtain ⟨rocks', ran, persists'⟩ :=
        persists.runOn_rebuildFromEntries entryCodec sizeCodec insideItems
      have applied : (StoreOp.rebuildFromEntries entries).apply rocks = .ok rocks' := by
        simp only [StoreOp.apply, KvStoreOps.rebuildFromEntries, ran, outcome]
      exact ⟨_, rocks', rfl, applied, persists'⟩

/-- A whole sequence of writes does so. -/
theorem run (persists : Persists rocks mem) {ops : List StoreOp}
    (inside : ∀ op ∈ ops, ∀ idx ∈ op.indices, idx < u64Max) :
    ∃ mem' rocks', StoreOp.run ops mem = .ok mem' ∧ StoreOp.run ops rocks = .ok rocks' ∧
      Persists rocks' mem' := by
  induction ops generalizing mem rocks with
  | nil => exact ⟨mem, rocks, rfl, rfl, persists⟩
  | cons op ops ih =>
      obtain ⟨memNext, rocksNext, memStep, rocksStep, persistsNext⟩ :=
        persists.apply_step entryCodec sizeCodec op (inside op List.mem_cons_self)
      obtain ⟨mem', rocks', memRun, rocksRun, persists'⟩ :=
        ih persistsNext fun other member => inside other (List.mem_cons_of_mem op member)
      have memAll : StoreOp.run (op :: ops) mem = .ok mem' := by
        rw [StoreOp.run, List.foldlM_cons, memStep]
        exact memRun
      have rocksAll : StoreOp.run (op :: ops) rocks = .ok rocks' := by
        rw [StoreOp.run, List.foldlM_cons, rocksStep]
        exact rocksRun
      exact ⟨mem', rocks', memAll, rocksAll, persists'⟩

end Steps

end Persists

/-- Whatever is written below `u64::MAX`, both backends accept it and answer
alike afterwards. -/
theorem backends_interchangeable (entryCodec : RoundTrips KvEntry) (sizeCodec : RoundTrips UInt64)
    (ops : List StoreOp) (inside : ∀ op ∈ ops, ∀ idx ∈ op.indices, idx < u64Max) :
    ∃ mem rocks, StoreOp.run ops MemKvStore.new = .ok mem ∧
      StoreOp.run ops RocksKvStore.new = .ok rocks ∧ AnswerAlike mem rocks := by
  obtain ⟨mem, rocks, memRun, rocksRun, persists⟩ := Persists.empty.run entryCodec sizeCodec inside
  exact ⟨mem, rocks, memRun, rocksRun, persists.answerAlike⟩

end Simulation

section Rewritten

attribute [local instance] plainHasher plainU64 plainEntry

/-- A gap, an overwrite below the top, and a rebuild that repeats an index. -/
def rewrites : List StoreOp :=
  [.put 4 ⟨1, [], Hash.zero⟩, .put 0 ⟨2, [7], Hash.zero⟩,
    .rebuildFromEntries [(2, ⟨3, [], Hash.fill 1⟩), (2, ⟨4, [], Hash.fill 2⟩)]]

theorem backends_interchangeable_rewritten :
    ∃ mem rocks, StoreOp.run rewrites MemKvStore.new = .ok mem ∧
      StoreOp.run rewrites RocksKvStore.new = .ok rocks ∧ AnswerAlike mem rocks := by
  have inside : ∀ op ∈ rewrites, ∀ idx ∈ op.indices, idx < u64Max := by
    simp only [rewrites, StoreOp.indices, List.forall_mem_cons, List.map_cons, List.map_nil,
      List.not_mem_nil, false_implies, implies_true, and_true]
    decide
  exact backends_interchangeable plainEntry_roundTrips plainU64_roundTrips rewrites inside

end Rewritten

end Raspen
