import Raspen.Storage.KeyOrder
import Raspen.Types.State
import Mathlib.Data.Finset.Basic

/-!
# In-memory log store

The `BTreeMap` backend.  Reading the last key or the last value goes through
the ordered entry list, as `keys().next_back()` and `values().next_back()` do.
-/

namespace Raspen

open KvStoreOps

/-- The in-memory store: log entries ordered by index. -/
structure MemKvStore where
  entries : Std.ExtTreeMap UInt64 KvEntry

namespace MemKvStore

/-- The store of a fresh replica. -/
def new : MemKvStore :=
  ⟨∅⟩

/-- The entry with the highest index. -/
def lastEntry (store : MemKvStore) : Option (UInt64 × KvEntry) :=
  store.entries.toList.getLast?

/-- The last entry is the one no other index exceeds. -/
theorem lastEntry_eq_some_iff {store : MemKvStore} {k : UInt64} {entry : KvEntry} :
    store.lastEntry = some (k, entry) ↔ store.entries[k]? = some entry ∧
      ∀ j other, store.entries[j]? = some other → j ≤ k := by
  simp only [← Std.isLE_compare]
  exact KeyOrder.lastEntry_eq_some_iff

theorem lastEntry_eq_none_iff {store : MemKvStore} :
    store.lastEntry = none ↔ ∀ k : UInt64, store.entries[k]? = none :=
  KeyOrder.lastEntry_eq_none_iff

theorem getElem?_insert (entries : Std.ExtTreeMap UInt64 KvEntry) (idx k : UInt64)
    (entry : KvEntry) :
    (entries.insert idx entry)[k]? = if k = idx then some entry else entries[k]? := by
  rw [Std.ExtTreeMap.getElem?_insert]
  by_cases same : k = idx
  · simp [same]
  · rw [if_neg same, if_neg]
    rw [Std.compare_eq_iff_eq]
    exact fun equal => same equal.symm

/-- An entry written above all others is the last one. -/
theorem lastEntry_insert_of_le {store : MemKvStore} {idx : UInt64} {entry : KvEntry}
    (bound : ∀ (j : UInt64) other, store.entries[j]? = some other → j ≤ idx) :
    lastEntry ⟨store.entries.insert idx entry⟩ = some (idx, entry) := by
  apply lastEntry_eq_some_iff.mpr
  constructor
  · rw [getElem?_insert, if_pos rfl]
  · intro j other atIndex
    rw [getElem?_insert] at atIndex
    by_cases same : j = idx
    · exact same ▸ UInt64.le_refl j
    · rw [if_neg same] at atIndex
      exact bound j other atIndex

/-- Writing an entry makes it the last one unless a higher index is present. -/
theorem lastEntry_insert (store : MemKvStore) (idx : UInt64) (entry : KvEntry) :
    lastEntry ⟨store.entries.insert idx entry⟩ =
      match store.lastEntry with
      | some (top, topEntry) => if idx < top then some (top, topEntry) else some (idx, entry)
      | none => some (idx, entry) := by
  cases last : store.lastEntry with
  | none =>
      apply lastEntry_insert_of_le
      intro j other atIndex
      rw [lastEntry_eq_none_iff.mp last j] at atIndex
      contradiction
  | some top =>
      obtain ⟨top, topEntry⟩ := top
      obtain ⟨atTop, highest⟩ := lastEntry_eq_some_iff.mp last
      by_cases below : idx < top
      · simp only [if_pos below]
        apply lastEntry_eq_some_iff.mpr
        constructor
        · rw [getElem?_insert, if_neg (UInt64.ne_of_lt below).symm]
          exact atTop
        · intro j other atIndex
          rw [getElem?_insert] at atIndex
          by_cases same : j = idx
          · exact same ▸ UInt64.le_of_lt below
          · rw [if_neg same] at atIndex
            exact highest j other atIndex
      · simp only [if_neg below]
        apply lastEntry_insert_of_le
        intro j other atIndex
        exact UInt64.le_trans (highest j other atIndex) (UInt64.not_lt.mp below)

/-- Writing a value at each of the first indices stores exactly these values. -/
theorem getElem?_insertAll (value : UInt64 → KvEntry) (count : Nat) (k : UInt64) :
    (((List.range count).map fun j => (UInt64.ofNat j, value (UInt64.ofNat j))).foldl
      (fun kept entry => kept.insert entry.1 entry.2)
      (∅ : Std.ExtTreeMap UInt64 KvEntry))[k]? =
      if k.toNat < count then some (value k) else none := by
  induction count with
  | zero => simp
  | succ count ih =>
      rw [List.range_succ, List.map_append, List.foldl_append]
      simp only [List.map_cons, List.map_nil, List.foldl_cons, List.foldl_nil]
      rw [getElem?_insert, ih]
      by_cases last : k = UInt64.ofNat count
      · have inside : k.toNat < count + 1 := by
          rw [last, UInt64.toNat_ofNat']
          exact Nat.lt_succ_of_le (Nat.mod_le _ _)
        rw [if_pos last, if_pos inside, last]
      · have different : k.toNat ≠ count := by
          intro same
          rw [← same, UInt64.ofNat_toNat] at last
          exact last rfl
        rw [if_neg last]
        by_cases inside : k.toNat < count
        · rw [if_pos inside, if_pos (Nat.lt_succ_of_lt inside)]
        · rw [if_neg inside, if_neg]
          omega

variable [EntryHasher]

instance : KvStoreOps MemKvStore where
  get store idx := .ok store.entries[idx]?
  put store idx entry := .ok ⟨store.entries.insert idx entry⟩
  size store :=
    match store.lastEntry with
    | some (k, _) => addU64 k 1
    | none => some 0
  topHash store := (store.lastEntry.map fun last => last.2.prevHash).getD Hash.zero
  hashAt store idx :=
    match store.entries[idx]? with
    | some entry => .ok (EntryHasher.entryHash entry)
    | none => .error s!"no entry at index {idx}"
  rebuildFromEntries _ entries :=
    .ok ⟨entries.foldl (fun kept entry => kept.insert entry.1 entry.2) ∅⟩

theorem hashAt_of_getElem? {store : MemKvStore} {k : UInt64} {entry : KvEntry}
    (atIndex : store.entries[k]? = some entry) :
    hashAt store k = .ok (EntryHasher.entryHash entry) := by
  simp [hashAt, atIndex]

theorem hashAt_insert (store : MemKvStore) (idx : UInt64) (entry : KvEntry) :
    hashAt (MemKvStore.mk (store.entries.insert idx entry)) idx =
      .ok (EntryHasher.entryHash entry) := by
  apply hashAt_of_getElem?
  rw [getElem?_insert, if_pos rfl]

end MemKvStore

/-! ## A digest without collisions -/

/-- A byte string behind its length written in unary. -/
def frame (length : Nat) (bytes : List UInt8) : List UInt8 :=
  List.replicate length 1 ++ 0 :: bytes

theorem frame_injective {length length' : Nat} {bytes bytes' : List UInt8}
    (same : frame length bytes = frame length' bytes') : length = length' ∧ bytes = bytes' := by
  induction length generalizing length' with
  | zero =>
      cases length' with
      | zero => exact ⟨rfl, (List.cons.inj same).2⟩
      | succ length' => simp [frame, List.replicate_succ] at same
  | succ length ih =>
      cases length' with
      | zero => simp [frame, List.replicate_succ] at same
      | succ length' =>
          simp only [frame, List.replicate_succ, List.cons_append, List.cons.injEq,
            true_and] at same
          obtain ⟨rfl, rfl⟩ := ih same
          exact ⟨rfl, rfl⟩

/-- The digest that spells the whole entry out. -/
@[reducible]
def plainHasher : EntryHasher where
  entryHash entry :=
    frame entry.opHash.toNat (frame entry.result.length (entry.result ++ entry.prevHash))

theorem plainHasher_injective : Function.Injective plainHasher.entryHash := by
  rintro ⟨opHash, result, prevHash⟩ ⟨opHash', result', prevHash'⟩ same
  obtain ⟨opHash_eq, inner⟩ := frame_injective same
  obtain ⟨length_eq, bytes_eq⟩ := frame_injective inner
  obtain ⟨result_eq, prevHash_eq⟩ := List.append_inj bytes_eq length_eq
  rw [KvEntry.mk.injEq]
  exact ⟨UInt64.toNat_inj.mp opHash_eq, result_eq, prevHash_eq⟩

end Raspen
