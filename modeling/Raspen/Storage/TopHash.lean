import Raspen.Storage.HashChain
import Raspen.Storage.MemKvStore

/-!
# What the top hash commits to

`top_hash` returns the digest that the highest entry carries, which is the
digest of its predecessor.  It binds the log below the top entry and, of the top
entry itself, nothing but that digest; `hash_at` of the top index binds all.
-/

namespace Raspen

open KvStoreOps Raspen.HashChain

section Binding

variable [EntryHasher]

/-- A dense log of `size` entries, each of which carries the hash of its
predecessor. -/
structure ChainedLog (store : MemKvStore) (size : UInt64) : Prop where
  dense : ∀ k, (∃ entry, store.entries[k]? = some entry) ↔ k < size
  first : ∀ entry, store.entries[(0 : UInt64)]? = some entry → entry.prevHash = Hash.zero
  linked : ∀ k entry, k ≠ 0 → store.entries[k]? = some entry →
    hashAt store (k - 1) = .ok entry.prevHash

/-- The stored log, indexed from 0. -/
def MemKvStore.log (store : MemKvStore) (k : Nat) : Option KvEntry :=
  store.entries[UInt64.ofNat k]?

namespace ChainedLog

variable {store store' : MemKvStore} {size : UInt64}

omit [EntryHasher] in
theorem log_toNat (store : MemKvStore) (k : UInt64) : store.log k.toNat = store.entries[k]? := by
  rw [MemKvStore.log, UInt64.ofNat_toNat]

/-- A chained log is a hash chain. -/
theorem chained (chain : ChainedLog store size) :
    Chained KvEntry.prevHash EntryHasher.entryHash Hash.zero size.toNat store.log where
  present k inside := by
    have small : k < 2 ^ 64 := inside.trans size.toNat_lt
    apply (chain.dense (UInt64.ofNat k)).mpr
    rw [UInt64.lt_iff_toNat_lt, UInt64.toNat_ofNat_of_lt' small]
    exact inside
  first entry atIndex := chain.first entry atIndex
  linked k entry next inside atIndex atNext := by
    have small : k + 1 < 2 ^ 64 := inside.trans size.toNat_lt
    have nonzero : UInt64.ofNat (k + 1) ≠ 0 := by
      intro zero
      have := congrArg UInt64.toNat zero
      rw [UInt64.toNat_ofNat_of_lt' small] at this
      simp at this
    have before : UInt64.ofNat (k + 1) - 1 = UInt64.ofNat k := by
      rw [UInt64.ofNat_add]
      simp
    have carried := chain.linked (UInt64.ofNat (k + 1)) next nonzero atNext
    rw [before, MemKvStore.hashAt_of_getElem? atIndex] at carried
    exact (Except.ok.inj carried).symm

/-- The two hashes of a non-empty log are read off its top entry. -/
theorem exists_top (chain : ChainedLog store size) (nonempty : 0 < size) :
    ∃ entry, store.entries[size - 1]? = some entry ∧ topHash store = entry.prevHash ∧
      hashAt store (size - 1) = .ok (EntryHasher.entryHash entry) := by
  have toNat_eq := toNat_sub_one nonempty
  have inside : size - 1 < size := by
    rw [UInt64.lt_iff_toNat_lt]
    omega
  obtain ⟨entry, atTop⟩ := (chain.dense (size - 1)).mpr inside
  have highest : ∀ j other, store.entries[j]? = some other → j ≤ size - 1 := by
    intro j other atIndex
    have below := UInt64.lt_iff_toNat_lt.mp ((chain.dense j).mp ⟨other, atIndex⟩)
    rw [UInt64.le_iff_toNat_le]
    omega
  refine ⟨entry, atTop, ?_, MemKvStore.hashAt_of_getElem? atTop⟩
  simp [topHash, MemKvStore.lastEntry_eq_some_iff.mpr ⟨atTop, highest⟩]

/-- Equal top hashes say that the logs agree below the top entry, and no more. -/
theorem topHash_eq_iff (injective : Function.Injective EntryHasher.entryHash)
    (chain : ChainedLog store size) (chain' : ChainedLog store' size) (nonempty : 0 < size) :
    topHash store = topHash store' ↔
      ∀ k < size - 1, store.entries[k]? = store'.entries[k]? := by
  rcases chain.exists_top nonempty with ⟨entry, atTop, topHash_eq, _⟩
  rcases chain'.exists_top nonempty with ⟨entry', atTop', topHash_eq', _⟩
  have inside : (size - 1).toNat < size.toNat :=
    UInt64.lt_iff_toNat_lt.mp ((chain.dense (size - 1)).mp ⟨entry, atTop⟩)
  rw [← log_toNat] at atTop atTop'
  rw [topHash_eq, topHash_eq']
  constructor
  · intro same k below
    rw [← log_toNat, ← log_toNat]
    exact Chained.eq_below_of_link_eq injective chain.chained chain'.chained inside atTop atTop'
      same k.toNat (UInt64.lt_iff_toNat_lt.mp below)
  · intro same
    apply Chained.link_eq_of_eq_below chain.chained chain'.chained inside atTop atTop'
    intro j below
    have small : j < 2 ^ 64 := (below.trans inside).trans size.toNat_lt
    apply same (UInt64.ofNat j)
    rw [UInt64.lt_iff_toNat_lt, UInt64.toNat_ofNat_of_lt' small]
    exact below

/-- Equal hashes at the top index say that the logs agree everywhere. -/
theorem hashAt_eq_iff (injective : Function.Injective EntryHasher.entryHash)
    (chain : ChainedLog store size) (chain' : ChainedLog store' size) (nonempty : 0 < size) :
    hashAt store (size - 1) = hashAt store' (size - 1) ↔
      ∀ k < size, store.entries[k]? = store'.entries[k]? := by
  rcases chain.exists_top nonempty with ⟨entry, atTop, _, hashAt_eq⟩
  rcases chain'.exists_top nonempty with ⟨entry', atTop', _, hashAt_eq'⟩
  have inside : size - 1 < size := (chain.dense (size - 1)).mp ⟨entry, atTop⟩
  rw [hashAt_eq, hashAt_eq', Except.ok.injEq]
  constructor
  · intro same k below
    rw [← log_toNat] at atTop atTop'
    rw [← log_toNat, ← log_toNat]
    apply Chained.eq_of_digest_eq injective chain.chained chain'.chained
      (UInt64.lt_iff_toNat_lt.mp inside) atTop atTop' same
    rw [(toNat_sub_one nonempty).2]
    exact Nat.le_sub_one_of_lt (UInt64.lt_iff_toNat_lt.mp below)
  · intro same
    have sameTop := same (size - 1) inside
    rw [atTop, atTop', Option.some.injEq] at sameTop
    rw [sameTop]

omit [EntryHasher] in
/-- Logs of equal size agree everywhere when they agree below the top entry and
at it. -/
theorem agree_iff (nonempty : 0 < size) :
    (∀ k < size, store.entries[k]? = store'.entries[k]?) ↔
      (∀ k < size - 1, store.entries[k]? = store'.entries[k]?) ∧
        store.entries[size - 1]? = store'.entries[size - 1]? := by
  have split : ∀ k, k < size ↔ k < size - 1 ∨ k = size - 1 := by
    intro k
    have toNat_eq := toNat_sub_one nonempty
    rw [UInt64.lt_iff_toNat_lt, UInt64.lt_iff_toNat_lt, ← UInt64.toNat_inj]
    omega
  constructor
  · intro same
    exact ⟨fun k below => same k ((split k).mpr (.inl below)),
      same (size - 1) ((split _).mpr (.inr rfl))⟩
  · rintro ⟨below, top⟩ k inside
    rcases (split k).mp inside with lower | rfl
    · exact below k lower
    · exact top

end ChainedLog

/-- `top_hash` identifies the log, as `hash_at` of the top index does, exactly
when the two logs differ below the top entry or their top entries carry the same
operation and result. -/
theorem topHash_identifies_iff {store store' : MemKvStore} {size : UInt64}
    (injective : Function.Injective EntryHasher.entryHash) (chain : ChainedLog store size)
    (chain' : ChainedLog store' size) (nonempty : 0 < size) :
    ((topHash store = topHash store' → ∀ k < size, store.entries[k]? = store'.entries[k]?) ∧
      (topHash store = topHash store' ↔
        hashAt store (size - 1) = hashAt store' (size - 1))) ↔
    ((∀ k < size - 1, store.entries[k]? = store'.entries[k]?) →
      ∀ entry entry', store.entries[size - 1]? = some entry →
        store'.entries[size - 1]? = some entry' →
        entry.opHash = entry'.opHash ∧ entry.result = entry'.result) := by
  rw [ChainedLog.hashAt_eq_iff injective chain chain' nonempty, ChainedLog.agree_iff nonempty]
  have topHash_eq := ChainedLog.topHash_eq_iff injective chain chain' nonempty
  constructor
  · rintro ⟨identifies, _⟩ below entry entry' atTop atTop'
    have sameTop := (identifies (topHash_eq.mpr below)).2
    rw [atTop, atTop', Option.some.injEq] at sameTop
    rw [sameTop]
    exact ⟨rfl, rfl⟩
  · intro sameContent
    have identifies : topHash store = topHash store' →
        (∀ k < size - 1, store.entries[k]? = store'.entries[k]?) ∧
          store.entries[size - 1]? = store'.entries[size - 1]? := by
      intro sameHash
      have below := topHash_eq.mp sameHash
      rcases chain.exists_top nonempty with ⟨⟨opHash, result, prevHash⟩, atTop, topHash_top, _⟩
      rcases chain'.exists_top nonempty with
        ⟨⟨opHash', result', prevHash'⟩, atTop', topHash_top', _⟩
      have sameLink : prevHash = prevHash' := topHash_top.symm.trans (sameHash.trans topHash_top')
      obtain ⟨sameOp, sameResult⟩ := sameContent below _ _ atTop atTop'
      refine ⟨below, ?_⟩
      rw [atTop, atTop', Option.some.injEq, KvEntry.mk.injEq]
      exact ⟨sameOp, sameResult, sameLink⟩
    exact ⟨identifies, identifies, fun same => topHash_eq.mpr same.1⟩

end Binding

section OneEntry

attribute [local instance] plainHasher

/-- The log of a single operation. -/
def oneEntry (opHash : UInt64) : MemKvStore :=
  ⟨(∅ : Std.ExtTreeMap UInt64 KvEntry).insert 0 ⟨opHash, [], Hash.zero⟩⟩

theorem oneEntry_getElem? (opHash k : UInt64) :
    (oneEntry opHash).entries[k]? = if k = 0 then some ⟨opHash, [], Hash.zero⟩ else none := by
  rw [oneEntry, MemKvStore.getElem?_insert]
  simp

theorem chainedLog_oneEntry (opHash : UInt64) : ChainedLog (oneEntry opHash) 1 where
  dense k := by
    rw [oneEntry_getElem?, UInt64.lt_iff_toNat_lt]
    by_cases zero : k = 0
    · simp [zero]
    · have positive : k.toNat ≠ 0 := fun same => zero (UInt64.toNat_inj.mp same)
      simp [zero]
      omega
  first entry atIndex := by
    rw [oneEntry_getElem?, if_pos rfl] at atIndex
    cases atIndex
    rfl
  linked k entry nonzero atIndex := by
    rw [oneEntry_getElem?, if_neg nonzero] at atIndex
    contradiction

/-- Two different logs of one entry have the same top hash. -/
theorem topHash_collision :
    Function.Injective plainHasher.entryHash ∧
      ¬∀ (store store' : MemKvStore) (size : UInt64), ChainedLog store size →
        ChainedLog store' size → 0 < size → topHash store = topHash store' →
        ∀ k < size, store.entries[k]? = store'.entries[k]? := by
  refine ⟨plainHasher_injective, ?_⟩
  intro identifies
  have sameTop : topHash (oneEntry 0) = topHash (oneEntry 1) := by decide +kernel
  have same := identifies (oneEntry 0) (oneEntry 1) 1 (chainedLog_oneEntry 0)
    (chainedLog_oneEntry 1) (by decide) sameTop 0 (by decide)
  rw [oneEntry_getElem?, oneEntry_getElem?] at same
  simp at same

/-- A log of two operations. -/
def entryPair (opHash opHash' : UInt64) : MemKvStore :=
  ⟨(oneEntry opHash).entries.insert 1
    ⟨opHash', [], EntryHasher.entryHash ⟨opHash, [], Hash.zero⟩⟩⟩

theorem entryPair_getElem? (opHash opHash' k : UInt64) :
    (entryPair opHash opHash').entries[k]? =
      if k = 1 then some ⟨opHash', [], EntryHasher.entryHash ⟨opHash, [], Hash.zero⟩⟩
      else (oneEntry opHash).entries[k]? :=
  MemKvStore.getElem?_insert ..

theorem chainedLog_entryPair (opHash opHash' : UInt64) :
    ChainedLog (entryPair opHash opHash') 2 := by
  have zero_ne : (0 : UInt64) ≠ 1 := by decide
  have atZero : (entryPair opHash opHash').entries[(0 : UInt64)]? =
      some ⟨opHash, [], Hash.zero⟩ := by
    rw [entryPair_getElem?, if_neg zero_ne, oneEntry_getElem?, if_pos rfl]
  constructor
  · intro k
    rw [entryPair_getElem?, oneEntry_getElem?, UInt64.lt_iff_toNat_lt]
    by_cases one : k = 1
    · simp [one]
    by_cases zero : k = 0
    · simp [zero]
    · have notOne : k.toNat ≠ 1 := fun same => one (UInt64.toNat_inj.mp same)
      have notZero : k.toNat ≠ 0 := fun same => zero (UInt64.toNat_inj.mp same)
      simp [one, zero]
      omega
  · intro entry atIndex
    rw [atZero] at atIndex
    cases atIndex
    rfl
  · intro k entry nonzero atIndex
    rw [entryPair_getElem?, oneEntry_getElem?, if_neg nonzero] at atIndex
    split at atIndex
    · rename_i isOne
      cases atIndex
      rw [isOne]
      exact MemKvStore.hashAt_of_getElem? atZero
    · contradiction

/-- The top hash does not tell apart two logs of one entry.  It does tell apart two logs of
two entries that differ in the first. -/
theorem topHash_identifies_entryPair :
    ¬((topHash (oneEntry 0) = topHash (oneEntry 1) →
        ∀ k < (1 : UInt64), (oneEntry 0).entries[k]? = (oneEntry 1).entries[k]?) ∧
      (topHash (oneEntry 0) = topHash (oneEntry 1) ↔
        hashAt (oneEntry 0) (1 - 1) = hashAt (oneEntry 1) (1 - 1))) ∧
    (topHash (entryPair 0 5) = topHash (entryPair 1 5) →
        ∀ k < (2 : UInt64), (entryPair 0 5).entries[k]? = (entryPair 1 5).entries[k]?) ∧
      (topHash (entryPair 0 5) = topHash (entryPair 1 5) ↔
        hashAt (entryPair 0 5) (2 - 1) = hashAt (entryPair 1 5) (2 - 1)) := by
  constructor
  · rw [topHash_identifies_iff plainHasher_injective (chainedLog_oneEntry 0)
      (chainedLog_oneEntry 1) (by decide)]
    intro sameContent
    have sameOp := (sameContent (fun k below => absurd below (by simp)) _ _
      (oneEntry_getElem? 0 0) (oneEntry_getElem? 1 0)).1
    contradiction
  · apply (topHash_identifies_iff plainHasher_injective (chainedLog_entryPair 0 5)
      (chainedLog_entryPair 1 5) (by decide)).mpr
    intro same
    have differ := same 0 (by decide)
    rw [entryPair_getElem?, entryPair_getElem?, oneEntry_getElem?, oneEntry_getElem?] at differ
    simp at differ

end OneEntry

end Raspen
