import Raspen.Consensus.History

/-!
# Where a log and a checkpoint come from

The entries a replica writes carry no request data, so its log is determined by
the handlers that have written it: the last index that a rebuild wrote, and the
speculative entries appended since.  `Provenance` follows these handlers
and explains the log, the top hash and the recorded checkpoint.
-/

namespace Raspen

open KvStoreOps Raspen.Transition

variable [EntryHasher]

/-- The entry at an index of a log that was last rebuilt up to index `base`.
Speculation chains the entries above `base`.  The first entry is the same either
way, so a log that was never rebuilt has base 0. -/
def expectedEntry (base : Nat) : Nat → KvEntry
  | 0 => syntheticEntry 0
  | k + 1 =>
      if k + 1 ≤ base then syntheticEntry (UInt64.ofNat (k + 1))
      else
        { opHash := UInt64.ofNat (k + 1)
          result := []
          prevHash := EntryHasher.entryHash (expectedEntry base k) }

/-- Up to `base` the entries are synthetic. -/
theorem expectedEntry_of_le {base k : Nat} (below : k ≤ base) :
    expectedEntry base k = syntheticEntry (UInt64.ofNat k) := by
  cases k with
  | zero => rfl
  | succ k => rw [expectedEntry, if_pos below]

/-- The top of a log: its index, and the base of the log the entry was written
to. -/
structure LogTop where
  index : UInt64
  base : UInt64
  deriving DecidableEq

/-- The entry at the top of a log. -/
def LogTop.entry (top : LogTop) : KvEntry :=
  expectedEntry top.base.toNat top.index.toNat

/-- How a replica came by its current checkpoint. -/
inductive CheckpointSource
  | initial
  | transfer
  | syncQuorum (top : Option LogTop)
  deriving DecidableEq

/-- The hash a checkpoint of each source records. -/
def CheckpointSource.hash (chkptIdx : UInt64) : CheckpointSource → Hash
  | .initial => Hash.zero
  | .transfer => EntryHasher.entryHash (syntheticEntry chkptIdx)
  | .syncQuorum top => (top.map fun top => top.entry.prevHash).getD Hash.zero

/-- What has been written: the last index of the last rebuild, the top of the log
and the source of the checkpoint. -/
structure Provenance where
  base : UInt64
  top : Option LogTop
  source : CheckpointSource
  deriving DecidableEq

namespace Provenance

/-- A fresh replica. -/
def start : Provenance :=
  ⟨0, none, .initial⟩

omit [EntryHasher] in
/-- The top after writing index `logIdx`. -/
def written (provenance : Provenance) (logIdx : UInt64) : Option LogTop :=
  match provenance.top with
  | some top => if logIdx < top.index then some top else some ⟨logIdx, provenance.base⟩
  | none => some ⟨logIdx, provenance.base⟩

/-- The effect of one handler.  An empty history resets the size of the log but
leaves its entries in the store. -/
def next (provenance : Provenance) : Cue → Provenance
  | .speculate logIdx => { provenance with top := provenance.written logIdx }
  | .formCheckpoint _ => { provenance with source := .syncQuorum provenance.top }
  | .stateReply chkptIdx => ⟨chkptIdx, some ⟨chkptIdx, chkptIdx⟩, .transfer⟩
  | .applyRepair historyHash =>
      if 0 < historyHash then
        { provenance with base := historyHash - 1, top := some ⟨historyHash - 1, historyHash - 1⟩ }
      else { provenance with base := 0 }
  | _ => provenance

end Provenance

/-- The provenance of a replica's log and checkpoint after its calls. -/
def History.provenance (history : History MemKvStore) : Provenance :=
  (history.calls.flatMap Call.cues).foldl (fun provenance firing => provenance.next firing.2)
    .start

/-- `provenance` explains the log and the checkpoint of `replica`. -/
structure Provenance.Explains (provenance : Provenance) (replica : Replica MemKvStore) :
    Prop where
  base_lt : provenance.base ≠ 0 → provenance.base < replica.kvSize
  log : ∀ k < replica.kvSize, replica.kvStore.entries[k]? =
    some (expectedEntry provenance.base.toNat k.toNat)
  top : replica.kvStore.lastEntry = provenance.top.map fun top => (top.index, top.entry)
  checkpoint : replica.chkptHash = provenance.source.hash replica.chkptIdx

theorem explains_new (config : Config) (nodeId : NodeId) :
    Provenance.start.Explains (Replica.new config nodeId MemKvStore.new) where
  base_lt nonzero := absurd rfl nonzero
  log k below := absurd below (by simp [Replica.new])
  top := MemKvStore.lastEntry_eq_none_iff.mpr fun k => by simp [Replica.new, MemKvStore.new]
  checkpoint := rfl

/-! ## Rebuilt logs -/

/-- A rebuild leaves the synthetic entries and nothing else. -/
theorem getElem?_of_rebuild {store rebuilt : MemKvStore} {count : Nat}
    (rebuilds : rebuildFromEntries store (syntheticEntries count) = .ok rebuilt) (k : UInt64) :
    rebuilt.entries[k]? = if k.toNat < count then some (syntheticEntry k) else none := by
  cases rebuilds
  exact MemKvStore.getElem?_insertAll syntheticEntry count k

theorem lt_of_rebuild {store rebuilt : MemKvStore} {count : Nat}
    (rebuilds : rebuildFromEntries store (syntheticEntries count) = .ok rebuilt) {k : UInt64}
    {entry : KvEntry} (atIndex : rebuilt.entries[k]? = some entry) : k.toNat < count := by
  rw [getElem?_of_rebuild rebuilds] at atIndex
  by_contra outside
  rw [if_neg outside] at atIndex
  contradiction

/-- A rebuilt log is explained by the last index written. -/
theorem log_of_rebuild {store rebuilt : MemKvStore} {count : Nat} {last : UInt64}
    (rebuilds : rebuildFromEntries store (syntheticEntries count) = .ok rebuilt)
    (count_eq : count = last.toNat + 1) {k : UInt64} (inside : k.toNat < count) :
    rebuilt.entries[k]? = some (expectedEntry last.toNat k.toNat) := by
  have below : k.toNat ≤ last.toNat := by omega
  rw [getElem?_of_rebuild rebuilds, if_pos inside, expectedEntry_of_le below,
    UInt64.ofNat_toNat]

/-- The top of a rebuilt log is its last synthetic entry. -/
theorem lastEntry_of_rebuild {store rebuilt : MemKvStore} {count : Nat} {last : UInt64}
    (rebuilds : rebuildFromEntries store (syntheticEntries count) = .ok rebuilt)
    (count_eq : count = last.toNat + 1) :
    rebuilt.lastEntry = some (last, LogTop.entry ⟨last, last⟩) := by
  apply MemKvStore.lastEntry_eq_some_iff.mpr
  constructor
  · exact log_of_rebuild rebuilds count_eq (by omega)
  · intro j other atIndex
    have below := lt_of_rebuild rebuilds atIndex
    rw [UInt64.le_iff_toNat_le]
    omega

/-! ## One handler -/

namespace Provenance.Explains

variable {provenance : Provenance} {replica next : Replica MemKvStore}

/-- A change of other fields needs no new explanation. -/
theorem of_same (explains : provenance.Explains replica) (size_eq : next.kvSize = replica.kvSize)
    (store_eq : next.kvStore = replica.kvStore) (idx_eq : next.chkptIdx = replica.chkptIdx)
    (hash_eq : next.chkptHash = replica.chkptHash) : provenance.Explains next where
  base_lt := size_eq ▸ explains.base_lt
  log := by
    rw [size_eq, store_eq]
    exact explains.log
  top := store_eq ▸ explains.top
  checkpoint := by
    rw [idx_eq, hash_eq]
    exact explains.checkpoint

/-- Speculation writes the expected entry on top of an explained log. -/
theorem newEntry_eq (explains : provenance.Explains replica) :
    newEntry replica replica.kvSize =
      expectedEntry provenance.base.toNat replica.kvSize.toNat := by
  cases size : replica.kvSize.toNat with
  | zero =>
      have empty : replica.kvSize = 0 := UInt64.toNat_inj.mp size
      rw [empty]
      rfl
  | succ k =>
      have positive : 0 < replica.kvSize := by
        rw [UInt64.lt_iff_toNat_lt, size]
        exact Nat.succ_pos k
      have predecessor := (toNat_sub_one positive).2
      have atBelow := explains.log (replica.kvSize - 1) (sub_one_lt positive)
      have chained : ¬k + 1 ≤ provenance.base.toNat := by
        by_cases zero : provenance.base = 0
        · simp [zero]
        · have := UInt64.lt_iff_toNat_lt.mp (explains.base_lt zero)
          omega
      have index : UInt64.ofNat (k + 1) = replica.kvSize := by rw [← size, UInt64.ofNat_toNat]
      rw [predecessor, size] at atBelow
      simp only [newEntry, expectedEntry, if_pos positive, if_neg chained, index,
        MemKvStore.hashAt_of_getElem? atBelow]
      rfl

theorem of_speculate (explains : provenance.Explains replica) {effects : List Effect}
    (handled : handleSpeculate replica replica.kvSize = some (next, effects)) :
    (provenance.next (.speculate replica.kvSize)).Explains next := by
  rcases handleSpeculate_eq_some handled with ⟨kvStore, kvSize, newHash, written, _, grown, rfl, _⟩
  have grew := toNat_of_addU64 grown
  cases written
  constructor
  · intro nonzero
    have below := UInt64.lt_iff_toNat_lt.mp (explains.base_lt nonzero)
    rw [UInt64.lt_iff_toNat_lt]
    exact below.trans (by simp [grew])
  · intro k below
    rw [MemKvStore.getElem?_insert, explains.newEntry_eq]
    by_cases top : k = replica.kvSize
    · rw [if_pos top, top]
      rfl
    · rw [if_neg top]
      apply explains.log k
      have inside := UInt64.lt_iff_toNat_lt.mp below
      have different : k.toNat ≠ replica.kvSize.toNat := fun same =>
        top (UInt64.toNat_inj.mp same)
      rw [UInt64.lt_iff_toNat_lt]
      simp only [grew, UInt64.toNat_one] at inside
      omega
  · have last := MemKvStore.lastEntry_insert replica.kvStore replica.kvSize
      (newEntry replica replica.kvSize)
    rw [explains.top, explains.newEntry_eq] at last
    rw [explains.newEntry_eq, last]
    simp only [Provenance.next, Provenance.written]
    cases provenance.top with
    | none => rfl
    | some top =>
        simp only [Option.map_some]
        split <;> rfl
  · exact explains.checkpoint

theorem of_stateReply {chkptIdx : UInt64} {effects : List Effect}
    (handled : handleStateReply replica chkptIdx = some (next, effects)) :
    (provenance.next (.stateReply chkptIdx)).Explains next := by
  rcases handleStateReply_eq_some handled with ⟨kvStore, kvSize, rebuilds, grown, rfl, _⟩
  have grew : kvSize.toNat = chkptIdx.toNat + 1 := toNat_of_addU64 grown
  have atTop := log_of_rebuild rebuilds rfl (Nat.lt_succ_self chkptIdx.toNat)
  constructor
  · intro _
    rw [UInt64.lt_iff_toNat_lt, grew]
    exact Nat.lt_succ_self _
  · intro k below
    apply log_of_rebuild rebuilds rfl
    rw [← grew]
    exact UInt64.lt_iff_toNat_lt.mp below
  · exact lastEntry_of_rebuild rebuilds rfl
  · rw [expectedEntry_of_le (Nat.le_refl _), UInt64.ofNat_toNat] at atTop
    simp only [MemKvStore.hashAt_of_getElem? atTop]
    rfl

theorem of_applyRepair (explains : provenance.Explains replica) {historyHash : UInt64}
    {effects : List Effect}
    (handled : handleApplyRepair replica historyHash = some (next, effects)) :
    (provenance.next (.applyRepair historyHash)).Explains next := by
  rcases handleApplyRepair_eq_some handled with ⟨kvStore, round, _, installed, rfl, _⟩
  unfold mergedStore at installed
  simp only [Provenance.next]
  by_cases positive : 0 < historyHash
  · rw [if_pos positive] at installed ⊢
    have rebuilds := ok_of_toOption_eq_some installed
    have size_eq : historyHash.toNat = (historyHash - 1).toNat + 1 := by
      have predecessor := toNat_sub_one positive
      omega
    constructor
    · exact fun _ => sub_one_lt positive
    · intro k below
      exact log_of_rebuild rebuilds size_eq (UInt64.lt_iff_toNat_lt.mp below)
    · exact lastEntry_of_rebuild rebuilds size_eq
    · exact explains.checkpoint
  · rw [if_neg positive] at installed ⊢
    cases installed
    have empty : historyHash = 0 := by
      apply UInt64.toNat_inj.mp
      have := UInt64.lt_iff_toNat_lt.not.mp positive
      simpa using this
    constructor
    · intro nonzero
      exact absurd rfl nonzero
    · intro k below
      rw [empty] at below
      exact absurd below (by simp)
    · exact explains.top
    · exact explains.checkpoint

/-- The handlers keep the provenance an explanation. -/
theorem of_perform {input : Input} {cue : Cue} {effects : List Effect}
    (explains : provenance.Explains replica) (guard : Guard input replica cue)
    (performs : perform replica cue = some (next, effects)) :
    (provenance.next cue).Explains next := by
  cases cue with
  | speculate logIdx =>
      rcases guard with ⟨_, msg, _, guard⟩
      rcases canSpeculate_eq_some_iff.mp guard with ⟨_, _, rfl⟩
      exact explains.of_speculate performs
  | formCheckpoint logIdx =>
      cases performs
      refine ⟨explains.base_lt, explains.log, explains.top, ?_⟩
      simp only [Provenance.next, CheckpointSource.hash, topHash, explains.top, Option.map_map]
      rfl
  | stateReply chkptIdx => exact of_stateReply performs
  | applyRepair historyHash => exact explains.of_applyRepair performs
  | repairDoneCatchup round =>
      rcases perform_repairDoneCatchup_eq_some performs with ⟨_, _, rfl, _⟩
      exact explains.of_same rfl rfl rfl rfl
  | viewChange newView =>
      rcases perform_viewChange_eq_some performs with ⟨view, _, rfl, _⟩
      exact explains.of_same rfl rfl rfl rfl
  | _ =>
      cases performs
      exact explains.of_same rfl rfl rfl rfl

/-- A SPEC-REPLY of an explained log reports the expected entry. -/
theorem specReply_of_perform {input : Input} {cue : Cue} {effects : List Effect}
    (explains : provenance.Explains replica) (guard : Guard input replica cue)
    (performs : perform replica cue = some (next, effects)) {effect : Effect}
    (effectMem : effect ∈ effects) {sender : NodeId} {round logIdx : UInt64} {logHash : Hash}
    (isReply : effect.message = .specReply sender round logIdx logHash) :
    logHash = EntryHasher.entryHash (expectedEntry provenance.base.toNat logIdx.toNat) := by
  have emits := emits_of_perform performs effect effectMem
  rw [isReply] at emits
  cases cue with
  | speculate idx =>
      rcases guard with ⟨_, msg, _, guard⟩
      rcases canSpeculate_eq_some_iff.mp guard with ⟨_, _, rfl⟩
      rcases handleSpeculate_eq_some performs with
        ⟨kvStore, _, newHash, written, reported, _, _, rfl⟩
      rw [List.mem_singleton.mp effectMem] at isReply
      cases isReply
      cases written
      rw [MemKvStore.hashAt_insert, explains.newEntry_eq] at reported
      exact (Except.ok.inj reported).symm
  | _ => contradiction

end Provenance.Explains

/-- Every SPEC-REPLY reports the entry expected at its index in some log. -/
structure ReportsLog (replica : Replica MemKvStore) (trace : List Effect) : Prop where
  explained : ∃ provenance : Provenance, provenance.Explains replica
  reports : ∀ effect ∈ trace, ∀ sender round logIdx logHash,
    effect.message = .specReply sender round logIdx logHash →
      ∃ base, logHash = EntryHasher.entryHash (expectedEntry base logIdx.toNat)

theorem ReportsLog.of_move {input : Input} {replica next : Replica MemKvStore}
    {trace effects : List Effect} (reports : ReportsLog replica trace)
    (move : Move input replica next effects) : ReportsLog next (trace ++ effects) := by
  obtain ⟨provenance, explains⟩ := reports.explained
  cases move with
  | idle => simpa using reports
  | store delivery =>
      rw [List.append_nil]
      exact ⟨⟨provenance, explains.of_same (by simp) (by simp) (by simp) (by simp)⟩,
        reports.reports⟩
  | perform guard performs =>
      refine ⟨⟨_, explains.of_perform guard performs⟩, ?_⟩
      intro effect effectMem sender round logIdx logHash isReply
      rcases List.mem_append.mp effectMem with old | new
      · exact reports.reports effect old sender round logIdx logHash isReply
      · exact ⟨_, explains.specReply_of_perform guard performs new isReply⟩

section Runs

variable {config : Config} {nodeId : NodeId} {history : History MemKvStore}

/-- What storing a message and every allowed cue preserve, a run of allowed cues
preserves. -/
theorem LocalRun.provenance_invariant {P : Provenance → Replica MemKvStore → Prop}
    (run : LocalRun config nodeId MemKvStore.new history) (allowed : Cue → Prop)
    (cues : ∀ call ∈ history.calls, ∀ firing ∈ call.cues, allowed firing.2)
    (new : P .start (Replica.new config nodeId MemKvStore.new))
    (store : ∀ {provenance replica} (msg : Message), P provenance replica →
      P provenance (replica.store msg))
    (perform : ∀ {input provenance replica cue next effects}, P provenance replica →
      allowed cue → Guard input replica cue → perform replica cue = some (next, effects) →
      P (provenance.next cue) next) :
    P history.provenance history.replica := by
  apply run.fired_invariant (P := fun replica trace =>
    P (trace.foldl (fun provenance (firing : Replica MemKvStore × Cue) =>
      provenance.next firing.2) .start) replica)
    (fun _ cue => allowed cue) cues new (fun msg holds => store msg holds)
  intro input replica cue next effects trace holds isAllowed guard performs
  rw [List.foldl_append]
  exact perform holds isAllowed guard performs

/-- In every run the provenance explains the log and the checkpoint. -/
theorem explains_of_localRun (run : LocalRun config nodeId MemKvStore.new history) :
    history.provenance.Explains history.replica := by
  apply run.provenance_invariant (P := fun provenance replica => provenance.Explains replica)
    (fun _ => True) (fun _ _ _ _ => trivial) (explains_new config nodeId)
  · intro provenance replica msg explains
    exact explains.of_same (by simp) (by simp) (by simp) (by simp)
  · intro input provenance replica cue next effects explains _ guard performs
    exact explains.of_perform guard performs

theorem reportsLog_of_localRun (run : LocalRun config nodeId MemKvStore.new history) :
    ReportsLog history.replica history.effects := by
  refine run.move_invariant ?_ ReportsLog.of_move
  exact ⟨⟨_, explains_new config nodeId⟩, fun effect effectMem => by simp at effectMem⟩

end Runs

end Raspen
