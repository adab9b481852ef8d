import Raspen.Storage.RocksKvStore

/-!
# Rebuilds that fail

A rebuild is a range deletion and a batch write, and each happens as a whole or not at
all.  The two together do not: a step that fails after the deletion leaves a database
without its log, whose size is still the old one.
-/

namespace Raspen

open Bincode RocksKvStore

namespace RocksKvStore.Action

variable {α β : Type}

/-- A sequence fails in its first part, or in the second on what the first left. -/
theorem runOn_bind_eq_error {action : Action α} {next : α → Action β}
    {store store' : RocksKvStore} {e : String}
    (failed : (action >>= next).runOn store = some (.error e, store')) :
    action.runOn store = some (.error e, store') ∨ ∃ value middle,
      action.runOn store = some (.ok value, middle) ∧
        (next value).runOn middle = some (.error e, store') := by
  change ((action.runOn store).bind fun ran => _) = _ at failed
  rcases Option.bind_eq_some_iff.mp failed with ⟨⟨result, middle⟩, ran, rest⟩
  cases result with
  | error e' =>
      left
      cases rest
      exact ran
  | ok value => exact .inr ⟨value, middle, ran, rest⟩

theorem runOn_bind_eq_ok {action : Action α} {next : α → Action β}
    {store store' : RocksKvStore} {value : β}
    (done : (action >>= next).runOn store = some (.ok value, store')) :
    ∃ first middle, action.runOn store = some (.ok first, middle) ∧
      (next first).runOn middle = some (.ok value, store') := by
  change ((action.runOn store).bind fun ran => _) = _ at done
  rcases Option.bind_eq_some_iff.mp done with ⟨⟨result, middle⟩, ran, rest⟩
  cases result with
  | error e => cases rest
  | ok first => exact ⟨first, middle, ran, rest⟩

/-- A failed call leaves the database as it was. -/
def FailsClean (action : Action α) : Prop :=
  ∀ store store' e, action.runOn store = some (.error e, store') → store' = store

/-- No outcome of the call changes the database. -/
def ReadOnly (action : Action α) : Prop :=
  ∀ store store' result, action.runOn store = some (result, store') → store' = store

theorem ReadOnly.failsClean {action : Action α} (readOnly : action.ReadOnly) :
    action.FailsClean :=
  fun store store' _ failed => readOnly store store' _ failed

theorem FailsClean.modify (fault : Option String) (change : RocksKvStore → RocksKvStore) :
    (modify fault change).FailsClean := by
  intro store store' e failed
  cases fault <;> cases failed
  rfl

theorem ReadOnly.read (query : RocksKvStore → Except String α) : (read query).ReadOnly := by
  intro store store' result ran
  have ended : (query store, store) = (result, store') := Option.some.inj ran
  exact (congrArg Prod.snd ended).symm

theorem ReadOnly.attempt (result : Except String α) : (attempt result).ReadOnly :=
  .read _

theorem ReadOnly.pure (value : α) : ReadOnly (pure value : Action α) :=
  .attempt (.ok value)

theorem ReadOnly.add (a b : UInt64) : (add a b).ReadOnly := by
  intro store store' result ran
  rcases Option.map_eq_some_iff.mp ran with ⟨sum, _, ended⟩
  exact (congrArg Prod.snd ended).symm

/-- What follows a call that changes nothing decides whether a failure is clean. -/
theorem FailsClean.bind {action : Action α} {next : α → Action β} (first : action.ReadOnly)
    (rest : ∀ value, (next value).FailsClean) : (action >>= next).FailsClean := by
  intro store store' e failed
  rcases runOn_bind_eq_error failed with failed | ⟨value, middle, ran, failed⟩
  · exact first _ _ _ failed
  · rw [rest value _ _ _ failed]
    exact first _ _ _ ran

theorem ReadOnly.bind {action : Action α} {next : α → Action β} (first : action.ReadOnly)
    (rest : ∀ value, (next value).ReadOnly) : (action >>= next).ReadOnly := by
  intro store store' result ran
  cases result with
  | error e =>
      exact FailsClean.bind first (fun value => (rest value).failsClean) store store' e ran
  | ok value =>
      rcases runOn_bind_eq_ok ran with ⟨value, middle, ranFirst, ranRest⟩
      rw [rest value _ _ _ ranRest]
      exact first _ _ _ ranFirst

theorem ReadOnly.foldlM {turn : β → α → Action β}
    (once : ∀ acc item, (turn acc item).ReadOnly)
    (items : List α) (acc : β) : (items.foldlM turn acc).ReadOnly := by
  induction items generalizing acc with
  | nil => exact .pure acc
  | cons item items ih =>
      rw [List.foldlM_cons]
      exact .bind (once acc item) ih

end RocksKvStore.Action

open Raspen.RocksKvStore.Action

theorem eq_u64Max_of_not_lt {idx : UInt64} (notBelow : ¬idx < u64Max) : idx = u64Max := by
  have bound : idx ≤ u64Max := by
    rw [UInt64.le_iff_toNat_le]
    exact Nat.le_of_lt_succ idx.toNat_lt
  exact UInt64.le_antisymm bound (UInt64.not_lt.mp notBelow)

section Rebuild

variable [Bincode UInt64] [Bincode KvEntry]

/-- The database after the range deletion. -/
def RocksKvStore.cleared (store : RocksKvStore) : RocksKvStore :=
  { store with
    defaultCf := KeyOrder.deleteRange (entryKey 0) (entryKey u64Max) store.defaultCf }

omit [Bincode UInt64] in
/-- Filling the batch writes nothing. -/
theorem readOnly_rebuildStep (acc : WriteBatch × UInt64) (item : UInt64 × KvEntry) :
    (rebuildStep acc item).ReadOnly := by
  apply ReadOnly.bind (.attempt _)
  intro value
  apply ReadOnly.bind (.add _ _)
  intro size
  exact .pure _

/-- A rebuild fails in the deletion, which leaves everything, or after it. -/
theorem rebuild_failed_cases {faults : Faults} {entries : List (UInt64 × KvEntry)}
    {store store' : RocksKvStore} {e : String}
    (failed : (rebuildFromEntries faults entries).runOn store = some (.error e, store')) :
    faults.deleteRange ≠ none ∧ store' = store ∨
      faults.deleteRange = none ∧ store' = store.cleared := by
  rcases runOn_bind_eq_error failed with failed | ⟨_, middle, deleted, failed⟩
  · left
    cases fault : faults.deleteRange with
    | none =>
        rw [fault] at failed
        cases failed
    | some text =>
        rw [fault] at failed
        cases failed
        exact ⟨by simp, rfl⟩
  · right
    have kept : store' = middle := by
      apply FailsClean.bind (.foldlM readOnly_rebuildStep entries _) _ _ _ _ failed
      intro batch
      apply FailsClean.bind (.attempt _)
      intro sizeBytes
      exact .modify _ _
    cases fault : faults.deleteRange with
    | some text =>
        rw [fault] at deleted
        cases deleted
    | none =>
        rw [fault] at deleted
        cases deleted
        exact ⟨rfl, kept⟩

omit [Bincode UInt64] in
/-- The deletion leaves nothing below the last index. -/
theorem get_cleared (store : RocksKvStore) {idx : UInt64} (below : idx < u64Max) :
    store.cleared.get idx = .ok none := by
  have low : (compare (entryKey 0) (entryKey idx)).isLE = true := by
    rw [compare_entryKey]
    exact Std.isLE_compare.mpr UInt64.zero_le
  have high : compare (entryKey idx) (entryKey u64Max) = .lt := by
    rw [compare_entryKey]
    exact Std.compare_eq_lt.mpr below
  have absent : store.cleared.defaultCf[entryKey idx]? = none := by
    rw [cleared, KeyOrder.deleteRange, Std.ExtTreeMap.getElem?_filter']
    cases store.defaultCf[entryKey idx]? <;> simp [low, high]
  rw [RocksKvStore.get, absent]

omit [Bincode UInt64] in
/-- The deletion spares the last index. -/
theorem get_cleared_last (store : RocksKvStore) :
    store.cleared.get u64Max = store.get u64Max := by
  have spared : store.cleared.defaultCf[entryKey u64Max]? =
      store.defaultCf[entryKey u64Max]? := by
    rw [cleared, KeyOrder.deleteRange, Std.ExtTreeMap.getElem?_filter']
    cases store.defaultCf[entryKey u64Max]? <;> simp [compare_entryKey]
  rw [RocksKvStore.get, spared, RocksKvStore.get]

/-- A failed rebuild leaves the entries and the size as they were exactly when it is the
deletion that failed, or there was nothing for it to delete. -/
theorem failed_rebuild_iff {faults : Faults} {entries : List (UInt64 × KvEntry)}
    {store store' : RocksKvStore} {e : String}
    (failed : (rebuildFromEntries faults entries).runOn store = some (.error e, store')) :
    ((∀ idx, store'.get idx = store.get idx) ∧
        store'.readMetaU64 metaKvSize = store.readMetaU64 metaKvSize) ↔
      faults.deleteRange ≠ none ∨ ∀ idx < u64Max, store.get idx = .ok none := by
  rcases rebuild_failed_cases failed with ⟨fault, rfl⟩ | ⟨noFault, rfl⟩
  · exact iff_of_true ⟨fun _ => rfl, rfl⟩ (.inl fault)
  · constructor
    · rintro ⟨sameEntries, _⟩
      right
      intro idx below
      rw [← sameEntries idx]
      exact get_cleared store below
    · rintro (fault | empty)
      · exact absurd noFault fault
      · constructor
        · intro idx
          by_cases below : idx < u64Max
          · rw [get_cleared store below, empty idx below]
          · rw [eq_u64Max_of_not_lt below]
            exact get_cleared_last store
        · rfl

end Rebuild

/-! ## A batch write that fails -/

section FullDisk

attribute [local instance] plainU64 plainEntry

/-- A database with one entry. -/
def writtenStore : RocksKvStore :=
  (((RocksKvStore.put .none 0 ⟨0, [], Hash.zero⟩).runOn .new).get (by decide +kernel)).2

/-- The deletion succeeds and the batch write does not. -/
def fullDisk : Faults :=
  ⟨none, some "No space left on device"⟩

theorem get_writtenStore : writtenStore.get 0 ≠ .ok none := by
  intro absent
  have stored : (writtenStore.get 0).toOption ≠ some none := by
    decide +kernel
  rw [absent] at stored
  exact stored rfl

theorem exists_failed_rebuild : ∃ e store',
    (rebuildFromEntries fullDisk [(0, ⟨1, [], Hash.zero⟩)]).runOn writtenStore =
      some (.error e, store') := by
  have fails : ((rebuildFromEntries fullDisk [(0, ⟨1, [], Hash.zero⟩)]).runOn writtenStore).map
      (·.1.toOption) = some none := by
    decide +kernel
  rcases Option.map_eq_some_iff.mp fails with ⟨⟨result, store'⟩, ran, isError⟩
  cases result with
  | error e => exact ⟨e, store', ran⟩
  | ok value => contradiction

/-- The batch write fails, and the old entry is gone. -/
theorem failed_rebuild_loses_log :
    ¬∀ [Bincode UInt64] [Bincode KvEntry] (faults : Faults)
      (entries : List (UInt64 × KvEntry)) (store store' : RocksKvStore) (e : String),
      (rebuildFromEntries faults entries).runOn store = some (.error e, store') →
        (∀ idx, store'.get idx = store.get idx) ∧
          store'.readMetaU64 metaKvSize = store.readMetaU64 metaKvSize := by
  intro intact
  rcases exists_failed_rebuild with ⟨e, store', failed⟩
  rcases rebuild_failed_cases failed with ⟨fault, _⟩ | ⟨_, rfl⟩
  · exact fault rfl
  · have same := (intact _ _ _ _ _ failed).1 0
    rw [get_cleared _ (by decide)] at same
    exact get_writtenStore same.symm

theorem failed_rebuild_iff_full :
    ∃ store' : RocksKvStore, ¬((∀ idx, store'.get idx = writtenStore.get idx) ∧
      store'.readMetaU64 metaKvSize = writtenStore.readMetaU64 metaKvSize) := by
  rcases exists_failed_rebuild with ⟨e, store', failed⟩
  refine ⟨store', ?_⟩
  rw [failed_rebuild_iff failed]
  rintro (fault | empty)
  · exact fault rfl
  · exact get_writtenStore (empty 0 (by decide))

end FullDisk

end Raspen
