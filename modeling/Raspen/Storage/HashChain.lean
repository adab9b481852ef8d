import Mathlib.Data.Option.Basic

/-!
# Hash chains

A chain is a log of which every entry carries a digest of its predecessor.  The
digest of an entry commits to the log up to that entry; the digest an entry
carries commits to the log below it only.
-/

namespace Raspen.HashChain

universe u v

variable {α : Type u} {δ : Type v}

/-- `log` holds an entry at each of its first `size` indices, the entry at index
0 carries `genesis`, and every later entry carries its predecessor's digest. -/
structure Chained (link digest : α → δ) (genesis : δ) (size : Nat) (log : Nat → Option α) :
    Prop where
  present : ∀ k < size, ∃ entry, log k = some entry
  first : ∀ entry, log 0 = some entry → link entry = genesis
  linked : ∀ k entry next, k + 1 < size → log k = some entry → log (k + 1) = some next →
    link next = digest entry

namespace Chained

variable {link digest : α → δ} {genesis : δ} {size : Nat} {log log' : Nat → Option α}

/-- Equal digests at an index mean equal logs up to that index. -/
theorem eq_of_digest_eq (injective : Function.Injective digest)
    (chain : Chained link digest genesis size log) (chain' : Chained link digest genesis size log')
    {k : Nat} {entry entry' : α} (inside : k < size) (atIndex : log k = some entry)
    (atIndex' : log' k = some entry') (same : digest entry = digest entry') :
    ∀ j ≤ k, log j = log' j := by
  induction k generalizing entry entry' with
  | zero =>
      intro j bound
      rw [Nat.le_zero.mp bound, atIndex, atIndex', injective same]
  | succ k ih =>
      have sameEntry : entry = entry' := injective same
      obtain ⟨below, atBelow⟩ := chain.present k (Nat.lt_of_succ_lt inside)
      obtain ⟨below', atBelow'⟩ := chain'.present k (Nat.lt_of_succ_lt inside)
      have sameBelow : digest below = digest below' := by
        calc
          digest below = link entry := (chain.linked k below entry inside atBelow atIndex).symm
          _ = link entry' := by rw [sameEntry]
          _ = digest below' := chain'.linked k below' entry' inside atBelow' atIndex'
      intro j bound
      rcases Nat.le_succ_iff.mp bound with lower | top
      · exact ih (Nat.lt_of_succ_lt inside) atBelow atBelow' sameBelow j lower
      · rw [top, atIndex, atIndex', sameEntry]

/-- Equal carried digests at an index mean equal logs below that index. -/
theorem eq_below_of_link_eq (injective : Function.Injective digest)
    (chain : Chained link digest genesis size log) (chain' : Chained link digest genesis size log')
    {k : Nat} {entry entry' : α} (inside : k < size) (atIndex : log k = some entry)
    (atIndex' : log' k = some entry') (same : link entry = link entry') :
    ∀ j < k, log j = log' j := by
  cases k with
  | zero =>
      intro j bound
      exact absurd bound (Nat.not_lt_zero j)
  | succ k =>
      obtain ⟨below, atBelow⟩ := chain.present k (Nat.lt_of_succ_lt inside)
      obtain ⟨below', atBelow'⟩ := chain'.present k (Nat.lt_of_succ_lt inside)
      have sameBelow : digest below = digest below' := by
        rw [← chain.linked k below entry inside atBelow atIndex, same]
        exact chain'.linked k below' entry' inside atBelow' atIndex'
      intro j bound
      exact eq_of_digest_eq injective chain chain' (Nat.lt_of_succ_lt inside) atBelow atBelow'
        sameBelow j (Nat.le_of_lt_succ bound)

/-- Logs that agree below an index carry the same digest at it. -/
theorem link_eq_of_eq_below (chain : Chained link digest genesis size log)
    (chain' : Chained link digest genesis size log') {k : Nat} {entry entry' : α}
    (inside : k < size) (atIndex : log k = some entry) (atIndex' : log' k = some entry')
    (same : ∀ j < k, log j = log' j) : link entry = link entry' := by
  cases k with
  | zero => rw [chain.first entry atIndex, chain'.first entry' atIndex']
  | succ k =>
      obtain ⟨below, atBelow⟩ := chain.present k (Nat.lt_of_succ_lt inside)
      have atBelow' : log' k = some below := same k (Nat.lt_succ_self k) ▸ atBelow
      rw [chain.linked k below entry inside atBelow atIndex]
      exact (chain'.linked k below entry' inside atBelow' atIndex').symm

end Chained

/-- A log given entry by entry is a chain when each entry carries the digest of the one
before it. -/
theorem chained_iff_of_present {link digest : α → δ} {genesis : δ} {size : Nat}
    {log : Nat → Option α} {entryAt : Nat → α} (nonempty : 0 < size)
    (present : ∀ k < size, log k = some (entryAt k)) :
    Chained link digest genesis size log ↔
      link (entryAt 0) = genesis ∧
        ∀ k, k + 1 < size → link (entryAt (k + 1)) = digest (entryAt k) := by
  constructor
  · intro chain
    constructor
    · exact chain.first _ (present 0 nonempty)
    · intro k inside
      exact chain.linked k _ _ inside (present k (Nat.lt_of_succ_lt inside)) (present _ inside)
  · rintro ⟨first, linked⟩
    constructor
    · intro k inside
      exact ⟨_, present k inside⟩
    · intro entry atFirst
      rw [present 0 nonempty] at atFirst
      cases atFirst
      exact first
    · intro k entry next inside atIndex atNext
      rw [present k (Nat.lt_of_succ_lt inside)] at atIndex
      rw [present _ inside] at atNext
      cases atIndex
      cases atNext
      exact linked k inside

end Raspen.HashChain
