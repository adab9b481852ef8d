import Raspen.Consensus.Provenance

/-!
# Different sources record different hashes

A checkpoint taken at the top of a log records a digest that gives its source
away: synthetic entries carry filled digests, chained ones the digest of their
predecessor.  No two sources share a digest as long as the entry hash is
injective and never a filled digest.
-/

namespace Raspen

open KvStoreOps Raspen.Transition

section Digests

variable [EntryHasher]

/-- The digest an expected entry carries: filled up to the base of the log, and
the digest of its predecessor above it. -/
theorem prevHash_expectedEntry_of_le {base k : Nat} (below : k ≤ base) :
    (expectedEntry base k).prevHash = Hash.fill (UInt64.ofNat k).toUInt8 := by
  rw [expectedEntry_of_le below]
  rfl

theorem prevHash_expectedEntry_succ {base k : Nat} (above : base ≤ k) :
    (expectedEntry base (k + 1)).prevHash = EntryHasher.entryHash (expectedEntry base k) := by
  rw [expectedEntry, if_neg (Nat.not_le.mpr (Nat.lt_succ_of_le above))]

theorem opHash_expectedEntry (base k : Nat) :
    (expectedEntry base k).opHash = UInt64.ofNat k := by
  cases k with
  | zero => rfl
  | succ k =>
      rw [expectedEntry]
      split <;> rfl

variable (injective : Function.Injective EntryHasher.entryHash)
  (noFill : ∀ entry byte, EntryHasher.entryHash entry ≠ Hash.fill byte)
include injective noFill

/-- The digest carried by an entry betrays the base of its log. -/
theorem base_eq_of_prevHash_eq {base base' k : Nat} (below : base ≤ k) (below' : base' ≤ k)
    (same : (expectedEntry base k).prevHash = (expectedEntry base' k).prevHash) :
    base = base' := by
  induction k with
  | zero => omega
  | succ k ih =>
      rcases Nat.le_succ_iff.mp below with inner | rfl
      · rcases Nat.le_succ_iff.mp below' with inner' | rfl
        · rw [prevHash_expectedEntry_succ inner, prevHash_expectedEntry_succ inner'] at same
          exact ih inner inner' (congrArg KvEntry.prevHash (injective same))
        · rw [prevHash_expectedEntry_succ inner, prevHash_expectedEntry_of_le (Nat.le_refl _)]
            at same
          exact absurd same (noFill _ _)
      · rcases Nat.le_succ_iff.mp below' with inner' | rfl
        · rw [prevHash_expectedEntry_succ inner', prevHash_expectedEntry_of_le (Nat.le_refl _)]
            at same
          exact absurd same.symm (noFill _ _)
        · rfl

/-- The digest the top entry carries is not the digest of the synthetic entry at
its own index. -/
theorem entryHash_syntheticEntry_ne_prevHash {base k : Nat} (small : k < 2 ^ 64)
    (below : base ≤ k) : EntryHasher.entryHash (syntheticEntry (UInt64.ofNat k)) ≠
      (expectedEntry base k).prevHash := by
  intro same
  cases k with
  | zero =>
      rw [prevHash_expectedEntry_of_le (Nat.zero_le _)] at same
      exact noFill _ _ same
  | succ k =>
      rcases Nat.le_succ_iff.mp below with inner | rfl
      · rw [prevHash_expectedEntry_succ inner] at same
        have sameOp := congrArg KvEntry.opHash (injective same)
        rw [opHash_expectedEntry] at sameOp
        have sameIndex := congrArg UInt64.toNat sameOp
        rw [syntheticEntry, UInt64.toNat_ofNat_of_lt' small,
          UInt64.toNat_ofNat_of_lt' (Nat.lt_of_succ_lt small)] at sameIndex
        omega
      · rw [prevHash_expectedEntry_of_le (Nat.le_refl _)] at same
        exact noFill _ _ same

end Digests

/-! ## Checkpoints at the top of a log -/

/-- The checkpoint was transferred, or formed while the highest entry of the
store was the one at its index. -/
def CheckpointSource.AtTop (chkptIdx : UInt64) : CheckpointSource → Prop
  | .initial => False
  | .transfer => True
  | .syncQuorum top => ∃ base ≤ chkptIdx, top = some ⟨chkptIdx, base⟩

/-- Equal hashes of a checkpoint have equal sources. -/
theorem CheckpointSource.eq_of_hash_eq [EntryHasher]
    (injective : Function.Injective EntryHasher.entryHash)
    (noFill : ∀ entry byte, EntryHasher.entryHash entry ≠ Hash.fill byte) {chkptIdx : UInt64}
    {source source' : CheckpointSource} (atTop : source.AtTop chkptIdx)
    (atTop' : source'.AtTop chkptIdx) (same : source.hash chkptIdx = source'.hash chkptIdx) :
    source = source' := by
  have different : ∀ base ≤ chkptIdx, EntryHasher.entryHash (syntheticEntry chkptIdx) ≠
      (LogTop.entry ⟨chkptIdx, base⟩).prevHash := by
    intro base below
    have distinct := entryHash_syntheticEntry_ne_prevHash injective noFill chkptIdx.toNat_lt
      (UInt64.le_iff_toNat_le.mp below)
    rw [UInt64.ofNat_toNat] at distinct
    exact distinct
  cases source with
  | initial => contradiction
  | transfer =>
      cases source' with
      | initial => contradiction
      | transfer => rfl
      | syncQuorum top =>
          rcases atTop' with ⟨base, below, rfl⟩
          exact absurd same (different base below)
  | syncQuorum top =>
      rcases atTop with ⟨base, below, rfl⟩
      cases source' with
      | initial => contradiction
      | transfer => exact absurd same.symm (different base below)
      | syncQuorum top' =>
          rcases atTop' with ⟨base', below', rfl⟩
          have sameBase := base_eq_of_prevHash_eq injective noFill
            (UInt64.le_iff_toNat_le.mp below) (UInt64.le_iff_toNat_le.mp below') same
          rw [UInt64.toNat_inj.mp sameBase]

/-- A log that has just grown past `logIdx` has its top there. -/
theorem top_of_grown {logIdx kvSize base : UInt64} (grown : addU64 logIdx 1 = some kvSize) :
    (if kvSize = 0 then none else some (LogTop.mk (kvSize - 1) base)) =
      some ⟨logIdx, base⟩ := by
  have filled : kvSize ≠ 0 := by
    intro empty
    have size := toNat_of_addU64 grown
    simp [empty] at size
  rw [if_neg filled, addU64_eq grown, UInt64.add_sub_cancel]

/-- The log has no entries beyond its size, so every checkpoint is taken at its
top. -/
structure Provenance.Direct [EntryHasher] (provenance : Provenance)
    (replica : Replica MemKvStore) : Prop where
  explains : provenance.Explains replica
  top : provenance.top =
    if replica.kvSize = 0 then none else some ⟨replica.kvSize - 1, provenance.base⟩
  source : (provenance.source = .initial ∧ replica.chkptIdx = 0) ∨
    provenance.source.AtTop replica.chkptIdx

namespace Provenance.Direct

variable [EntryHasher] {provenance : Provenance} {replica next : Replica MemKvStore}

theorem base_le (direct : provenance.Direct replica) (nonempty : replica.kvSize ≠ 0) :
    provenance.base ≤ replica.kvSize - 1 := by
  rw [UInt64.le_iff_toNat_le, (toNat_sub_one (UInt64.pos_iff_ne_zero.mpr nonempty)).2]
  by_cases zero : provenance.base = 0
  · simp [zero]
  · have below := UInt64.lt_iff_toNat_lt.mp (direct.explains.base_lt zero)
    omega

/-- Speculation writes the new top. -/
theorem written_eq (direct : provenance.Direct replica) :
    provenance.written replica.kvSize = some ⟨replica.kvSize, provenance.base⟩ := by
  rw [Provenance.written, direct.top]
  by_cases empty : replica.kvSize = 0
  · simp [empty]
  · have predecessor := (toNat_sub_one (UInt64.pos_iff_ne_zero.mpr empty)).2
    have above : ¬replica.kvSize < replica.kvSize - 1 := by
      rw [UInt64.lt_iff_toNat_lt]
      omega
    simp only [if_neg empty, if_neg above]

theorem of_same (direct : provenance.Direct replica) (size_eq : next.kvSize = replica.kvSize)
    (store_eq : next.kvStore = replica.kvStore) (idx_eq : next.chkptIdx = replica.chkptIdx)
    (hash_eq : next.chkptHash = replica.chkptHash) : provenance.Direct next where
  explains := direct.explains.of_same size_eq store_eq idx_eq hash_eq
  top := by
    rw [size_eq]
    exact direct.top
  source := by
    rw [idx_eq]
    exact direct.source

/-- Every handler keeps the checkpoints at the top, unless it applies an empty
history: that one leaves the entries of the old log in the store. -/
theorem of_perform {input : Input} {cue : Cue} {effects : List Effect}
    (direct : provenance.Direct replica) (nonempty : cue ≠ .applyRepair 0)
    (guard : Guard input replica cue)
    (performs : perform replica cue = some (next, effects)) :
    (provenance.next cue).Direct next := by
  have explains := direct.explains.of_perform guard performs
  cases cue with
  | speculate logIdx =>
      rcases guard with ⟨_, msg, _, guard⟩
      rcases canSpeculate_eq_some_iff.mp guard with ⟨_, _, rfl⟩
      rcases handleSpeculate_eq_some performs with ⟨_, kvSize, _, _, _, grown, rfl, _⟩
      refine ⟨explains, ?_, direct.source⟩
      rw [Provenance.next, top_of_grown grown]
      exact direct.written_eq
  | formCheckpoint logIdx =>
      rcases canFormCheckpoint_eq_some_iff.mp guard with ⟨_, filled, rfl, _⟩
      have top := direct.top
      rw [if_neg filled] at top
      cases performs
      exact ⟨explains, direct.top, .inr ⟨provenance.base, direct.base_le filled, top⟩⟩
  | stateReply chkptIdx =>
      rcases handleStateReply_eq_some performs with ⟨_, kvSize, _, grown, rfl, _⟩
      exact ⟨explains, (top_of_grown grown).symm, .inr trivial⟩
  | applyRepair historyHash =>
      rcases handleApplyRepair_eq_some performs with ⟨_, _, _, _, rfl, _⟩
      have filled : historyHash ≠ 0 := fun empty => nonempty (congrArg Cue.applyRepair empty)
      have next_eq : provenance.next (.applyRepair historyHash) = { provenance with
          base := historyHash - 1, top := some ⟨historyHash - 1, historyHash - 1⟩ } :=
        if_pos (UInt64.pos_iff_ne_zero.mpr filled)
      rw [next_eq] at explains ⊢
      exact ⟨explains, (if_neg filled).symm, direct.source⟩
  | repairDoneCatchup round =>
      rcases perform_repairDoneCatchup_eq_some performs with ⟨_, _, rfl, _⟩
      exact direct.of_same rfl rfl rfl rfl
  | viewChange newView =>
      rcases perform_viewChange_eq_some performs with ⟨view, _, rfl, _⟩
      exact direct.of_same rfl rfl rfl rfl
  | _ =>
      cases performs
      exact direct.of_same rfl rfl rfl rfl

end Provenance.Direct

section Runs

variable [EntryHasher] {config : Config} {nodeId : NodeId} {history : History MemKvStore}

theorem direct_of_localRun (run : LocalRun config nodeId MemKvStore.new history)
    (nonempty : ∀ call ∈ history.calls, ∀ firing ∈ call.cues, firing.2 ≠ .applyRepair 0) :
    history.provenance.Direct history.replica := by
  apply run.provenance_invariant (P := fun provenance replica => provenance.Direct replica)
    (fun cue => cue ≠ .applyRepair 0) nonempty
  · exact ⟨explains_new config nodeId, rfl, .inl ⟨rfl, rfl⟩⟩
  · intro provenance replica msg direct
    exact direct.of_same (by simp) (by simp) (by simp) (by simp)
  · intro input provenance replica cue next effects direct nonempty guard performs
    exact direct.of_perform nonempty guard performs

end Runs

end Raspen
