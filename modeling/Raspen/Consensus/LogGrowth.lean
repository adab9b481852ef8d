import Raspen.Consensus.Closing

/-!
# Log growth and checkpoints

A SYNC quorum counts only while its index is the top of the log.  A SPECULATE that
arrives before the last SYNC moves the top, and the quorum below it is not looked at
any more.
-/

namespace Raspen

open KvStoreOps Raspen.Transition

variable {S : Type} [KvStoreOps S]

/-! ## Quorums of stored SYNCs -/

/-- A fast quorum of SYNCs for `(round, logIdx)` with `logHash` is stored. -/
def HoldsSyncs (replica : Replica S) (round logIdx : UInt64) (logHash : Hash) : Prop :=
  replica.config.fastQuorum ≤
    (replica.syncMsgs.filter (·.isSyncFor round logIdx logHash)).card

/-- A fast quorum of SYNCs is stored for the log top. -/
def HoldsTopSyncs (replica : Replica S) : Prop :=
  HoldsSyncs replica replica.round (replica.kvSize - 1) (topHash replica.kvStore)

/-- A fast quorum of SYNCs is stored for the log with one entry more. -/
def HoldsNextSyncs (replica : Replica S) : Prop :=
  ∃ kvStore,
    put replica.kvStore replica.kvSize (newEntry replica replica.kvSize) = .ok kvStore ∧
    HoldsSyncs replica replica.round replica.kvSize (topHash kvStore)

/-- A fast quorum of SYNCs of the next round is stored. -/
def HoldsLaterSyncs (replica : Replica S) : Prop :=
  ∃ round logIdx logHash, addU64 replica.round 1 = some round ∧
    HoldsSyncs replica round logIdx logHash

/-- The replica with its log top as the checkpoint. -/
def recorded (replica : Replica S) : Replica S :=
  { replica with chkptIdx := replica.kvSize - 1, chkptHash := topHash replica.kvStore }

section Forming

variable {replica : Replica S}

theorem checkpointed_of_holds (speculative : replica.phase = .speculative)
    (nonempty : replica.kvSize ≠ 0) (holds : HoldsTopSyncs replica) :
    checkpointed replica = recorded replica := by
  have forms : canFormCheckpoint replica = some (replica.kvSize - 1) :=
    canFormCheckpoint_eq_some_iff.mpr ⟨speculative, nonempty, rfl, holds⟩
  rw [checkpointed, forms]
  rfl

theorem checkpointed_of_not_holds
    (short : replica.phase = .speculative → ¬HoldsTopSyncs replica) :
    checkpointed replica = replica := by
  cases forms : canFormCheckpoint replica with
  | none => rw [checkpointed, forms]
  | some logIdx =>
      obtain ⟨speculative, _, rfl, holds⟩ := canFormCheckpoint_eq_some_iff.mp forms
      exact absurd holds (short speculative)

end Forming

/-- An entry is appended. -/
structure Grows (replica grown : Replica S) : Prop where
  written : put replica.kvStore replica.kvSize (newEntry replica replica.kvSize) =
    .ok grown.kvStore
  size : grown.kvSize.toNat = replica.kvSize.toNat + 1
  phase : grown.phase = replica.phase
  round : grown.round = replica.round
  record : SameRecord replica grown

namespace Grows

variable {replica grown : Replica S}

theorem of_handleSpeculate {effects : List Effect}
    (handled : handleSpeculate replica replica.kvSize = some (grown, effects)) :
    Grows replica grown := by
  rcases handleSpeculate_eq_some handled with ⟨_, _, _, written, _, advanced, rfl, _⟩
  exact ⟨written, toNat_of_addU64 advanced, rfl, rfl, rfl, rfl, rfl, rfl⟩

theorem top_eq (grows : Grows replica grown) : grown.kvSize - 1 = replica.kvSize := by
  have size := grows.size
  have nonempty : 0 < grown.kvSize := by
    rw [UInt64.lt_iff_toNat_lt, size]
    exact Nat.succ_pos _
  apply UInt64.toNat_inj.mp
  have less := (toNat_sub_one nonempty).2
  omega

theorem nonempty (grows : Grows replica grown) : grown.kvSize ≠ 0 := by
  intro empty
  have size := grows.size
  rw [empty] at size
  simp at size

/-- The quorum for the next entry is the one for the top of the grown log. -/
theorem holds_iff (grows : Grows replica grown) :
    HoldsTopSyncs grown ↔ HoldsNextSyncs replica := by
  unfold HoldsTopSyncs HoldsNextSyncs HoldsSyncs
  rw [grows.top_eq, grows.round, grows.record.syncMsgs, grows.record.config]
  constructor
  · intro holds
    exact ⟨grown.kvStore, grows.written, holds⟩
  · rintro ⟨kvStore, written, holds⟩
    rw [grows.written] at written
    cases written
    exact holds

/-- What is stored for the next round is stored after the append. -/
theorem holdsLaterSyncs (grows : Grows replica grown) (holds : HoldsLaterSyncs grown) :
    HoldsLaterSyncs replica := by
  unfold HoldsLaterSyncs HoldsSyncs at holds ⊢
  rw [grows.round, grows.record.syncMsgs, grows.record.config] at holds
  exact holds

end Grows

/-- An append does not see the checkpoint or what has been stored. -/
theorem put_recorded_store (replica : Replica S) (msg : Message) :
    put (recorded (replica.store msg)).kvStore (recorded (replica.store msg)).kvSize
        (newEntry (recorded (replica.store msg)) (recorded (replica.store msg)).kvSize) =
      put replica.kvStore replica.kvSize (newEntry replica replica.kvSize) := by
  have entry_eq : newEntry (recorded (replica.store msg)) replica.kvSize =
      newEntry replica replica.kvSize :=
    newEntry_store replica msg replica.kvSize
  simpa [recorded] using congrArg (put replica.kvStore replica.kvSize) entry_eq

/-- The grown log is the same, whether it grows before the checkpoint or after it. -/
theorem Grows.sameCheckpoint {replica grown grown' : Replica S} {msg : Message}
    (grows : Grows replica grown) (grows' : Grows (recorded (replica.store msg)) grown') :
    SameCheckpoint (recorded grown') (recorded grown) := by
  have written := grows'.written
  rw [put_recorded_store, grows.written] at written
  have store_eq : grown.kvStore = grown'.kvStore := by
    simpa using written
  constructor
  · calc
      grown'.kvSize - 1 = (recorded (replica.store msg)).kvSize := grows'.top_eq
      _ = replica.kvSize := replica.store_kvSize msg
      _ = grown.kvSize - 1 := grows.top_eq.symm
  · exact congrArg topHash store_eq.symm

/-! ## The completing SYNC -/

/-- `msg` is the SYNC that completes a fast quorum of senders for the log top. -/
structure Completes (replica : Replica S) (msg : Message) : Prop where
  isTop : msg.isSyncFor replica.round (replica.kvSize - 1) (topHash replica.kvStore) = true
  before : (senders (Message.isSyncFor replica.round (replica.kvSize - 1)
    (topHash replica.kvStore)) replica.syncMsgs).card < replica.config.fastQuorum
  after : replica.config.fastQuorum ≤ (senders (Message.isSyncFor replica.round
    (replica.kvSize - 1) (topHash replica.kvStore)) (insert msg replica.syncMsgs)).card

namespace Completes

variable {replica : Replica S} {msg : Message}

theorem isSync (completes : Completes replica msg) : msg.isSync = true := by
  have isTop := completes.isTop
  cases msg <;> simp_all [Message.isSyncFor, Message.isSync]

theorem holds (completes : Completes replica msg) : HoldsTopSyncs (replica.store msg) := by
  have counted := completes.after.trans (card_senders_le _ _)
  unfold HoldsTopSyncs HoldsSyncs
  rw [Replica.store_syncMsgs, if_pos completes.isSync]
  simpa using counted

/-- It counts for no other round and for no other index. -/
theorem holdsSyncs_store (completes : Completes replica msg) (state : Replica S)
    {round logIdx : UInt64} {logHash : Hash}
    (other : round ≠ replica.round ∨ logIdx ≠ replica.kvSize - 1) :
    HoldsSyncs (state.store msg) round logIdx logHash ↔
      HoldsSyncs state round logIdx logHash := by
  have rejects : msg.isSyncFor round logIdx logHash = false := by
    have isTop := completes.isTop
    cases msg with
    | sync sender r li lh etaStar =>
        simp only [Message.isSyncFor, Bool.and_eq_true, beq_iff_eq] at isTop
        obtain ⟨⟨rfl, rfl⟩, _⟩ := isTop
        rcases other with different | different <;> simp [Message.isSyncFor, different.symm]
    | _ => rfl
  unfold HoldsSyncs
  rw [Replica.store_syncMsgs, if_pos completes.isSync, Finset.filter_insert, rejects]
  simp

/-- Once the checkpoint is recorded, what is stored for the next entry is unchanged. -/
theorem holdsNextSyncs_iff (completes : Completes replica msg) (nonempty : replica.kvSize ≠ 0) :
    HoldsNextSyncs (recorded (replica.store msg)) ↔ HoldsNextSyncs replica := by
  have above : replica.kvSize ≠ replica.kvSize - 1 :=
    (UInt64.ne_of_lt (sub_one_lt (UInt64.pos_iff_ne_zero.mpr nonempty))).symm
  have size_eq : (recorded (replica.store msg)).kvSize = replica.kvSize :=
    replica.store_kvSize msg
  have round_eq : (recorded (replica.store msg)).round = replica.round :=
    replica.store_round msg
  unfold HoldsNextSyncs
  rw [put_recorded_store, size_eq, round_eq]
  constructor
  · rintro ⟨kvStore, written, holds⟩
    exact ⟨kvStore, written, (completes.holdsSyncs_store replica (.inr above)).mp holds⟩
  · rintro ⟨kvStore, written, holds⟩
    exact ⟨kvStore, written, (completes.holdsSyncs_store replica (.inr above)).mpr holds⟩

/-- It counts for no later round. -/
theorem holdsLaterSyncs (completes : Completes replica msg)
    (holds : HoldsLaterSyncs (recorded (replica.store msg))) : HoldsLaterSyncs replica := by
  rcases holds with ⟨round, logIdx, logHash, advanced, holds⟩
  have round_eq : (recorded (replica.store msg)).round = replica.round :=
    replica.store_round msg
  rw [round_eq] at advanced
  have later : round ≠ replica.round :=
    (UInt64.ne_of_lt (lt_of_addU64_one advanced)).symm
  exact ⟨round, logIdx, logHash, advanced,
    (completes.holdsSyncs_store replica (.inl later)).mp holds⟩

/-- With the quorum complete there is no conflict, and the SYNC is no other evidence. -/
theorem undisturbed_iff (completes : Completes replica msg) :
    Undisturbed (recorded (replica.store msg)) ↔
      canEnterAlign (recorded replica) = none ∧ canTimeoutProof replica = none := by
  have holds : HoldsTopSyncs (recorded (replica.store msg)) := completes.holds
  have noConflict : canConflictProof (recorded (replica.store msg)) = none := by
    cases conflicts : canConflictProof (recorded (replica.store msg)) with
    | none => rfl
    | some logIdx =>
        obtain ⟨_, _, _, rfl, _, short⟩ := canConflictProof_eq_some_iff.mp conflicts
        exact absurd holds (Nat.not_le.mpr short)
  have same : canEnterAlign (recorded (replica.store msg)) = canEnterAlign (recorded replica) ∧
      canTimeoutProof (recorded (replica.store msg)) = canTimeoutProof replica := by
    have isSync := completes.isSync
    cases msg with
    | sync => exact ⟨rfl, rfl⟩
    | _ => contradiction
  unfold Undisturbed
  rw [same.1, same.2, noConflict]
  simp

end Completes

/-- A log top that is recorded is not recorded otherwise. -/
theorem sameCheckpoint_again (replica : Replica S) (msg : Message) :
    SameCheckpoint (checkpointed ((recorded replica).store msg)) (recorded replica) := by
  unfold checkpointed
  cases forms : canFormCheckpoint ((recorded replica).store msg) with
  | none => exact ⟨Replica.store_chkptIdx _ _, Replica.store_chkptHash _ _⟩
  | some logIdx =>
      obtain ⟨_, _, rfl, _⟩ := canFormCheckpoint_eq_some_iff.mp forms
      simp [SameCheckpoint, recorded]

/-! ## The calls -/

/-- A call on `msg` leaves the replica in `post`. -/
def LeadsTo (replica : Replica S) (msg : Message) (post : Replica S) : Prop :=
  ∃ order effects, processMessage order replica msg = some (post, effects)

/-- The closing blocks of a call leave the replica in `post`. -/
def Closes (opened post : Replica S) : Prop :=
  ∃ order effects, runStages perform (closingStages order) opened = some (post, effects)

/-- The replica is outside Speculative, or in another round and without a quorum for it. -/
def MovedOn (opened post : Replica S) : Prop :=
  post.phase = .speculative →
    post.round ≠ opened.round ∧ ∀ logIdx logHash, ¬HoldsSyncs post post.round logIdx logHash

namespace Closes

variable {opened post : Replica S}

theorem sameRecord (closes : Closes opened post) : SameRecord opened post := by
  rcases closes with ⟨order, effects, run⟩
  exact sameRecord_of_closing run

/-- Back in Speculative, the replica has kept the round or finished it. -/
theorem round_cases (closes : Closes opened post) (speculative : opened.phase = .speculative)
    (consistent : PhaseConsistent post) (again : post.phase = .speculative) :
    post.round = opened.round ∨ addU64 opened.round 1 = some post.round := by
  rcases closes with ⟨order, effects, run⟩
  rcases closing_cases speculative consistent run with ⟨_, rfl⟩ | ⟨_, elsewhere | finished⟩
  · exact .inl rfl
  · exact absurd again elsewhere
  · exact .inr finished

/-- The call ends where it stood, or the replica has moved on. -/
theorem cases_of_stays (closes : Closes opened post) (speculative : opened.phase = .speculative)
    (consistent : PhaseConsistent post)
    (stays : post.round = opened.round ∨ ¬HoldsLaterSyncs opened) :
    (Undisturbed opened ∧ post = opened) ∨ ¬Undisturbed opened ∧ MovedOn opened post := by
  have same := closes.sameRecord
  rcases closes with ⟨order, effects, run⟩
  rcases closing_cases speculative consistent run with calm | ⟨disturbed, ends⟩
  · exact .inl calm
  · right
    constructor
    · exact disturbed
    · intro speculative
      rcases ends with elsewhere | advanced
      · exact absurd speculative elsewhere
      · have other := (UInt64.ne_of_lt (lt_of_addU64_one advanced)).symm
        constructor
        · exact other
        · intro logIdx logHash holds
          apply stays.resolve_left other
          unfold HoldsSyncs at holds
          rw [same.syncMsgs, same.config] at holds
          exact ⟨post.round, logIdx, logHash, advanced, holds⟩

end Closes

namespace LeadsTo

variable {replica post : Replica S} {msg : Message}

theorem of_sync (leads : LeadsTo replica msg post) (isSync : msg.isSync = true) :
    Closes (checkpointed (replica.store msg)) post := by
  rcases leads with ⟨order, effects, steps⟩
  rcases closing_of_sync isSync steps with ⟨effects', closes⟩
  exact ⟨order, effects', closes⟩

theorem of_speculate (leads : LeadsTo replica msg post) (isSpeculate : msg.isSpeculate = true)
    (speculative : replica.phase = .speculative) :
    ∃ grown, Grows replica grown ∧ Closes (checkpointed grown) post := by
  rcases leads with ⟨order, effects, steps⟩
  rcases closing_of_speculate isSpeculate steps with
    ⟨_, grown, first, appends, effects', closes⟩ | ⟨elsewhere, _⟩
  · exact ⟨grown, Grows.of_handleSpeculate appends, order, effects', closes⟩
  · exact absurd speculative elsewhere

/-- A SPECULATE leaves the checkpoint, or moves it to the entry that it appends, if there
is a quorum for that. -/
theorem checkpoint_of_speculate (leads : LeadsTo replica msg post)
    (isSpeculate : msg.isSpeculate = true) :
    SameCheckpoint post replica ∨ replica.phase = .speculative ∧ ∃ appended,
      Grows replica appended ∧ HoldsTopSyncs appended ∧
        SameCheckpoint post (recorded appended) := by
  rcases leads with ⟨order, effects, steps⟩
  rcases closing_of_speculate isSpeculate steps with
    ⟨speculative, grown, first, appends, effects', closes⟩ | ⟨elsewhere, effects', closes⟩
  · have grows := Grows.of_handleSpeculate appends
    by_cases holds : HoldsTopSyncs grown
    · right
      have stillSpeculative := grows.phase.trans speculative
      rw [checkpointed_of_holds stillSpeculative grows.nonempty holds] at closes
      exact ⟨speculative, grown, grows, holds, (sameRecord_of_closing closes).sameCheckpoint⟩
    · left
      rw [checkpointed_of_not_holds (fun _ => holds)] at closes
      exact (grows.record.trans (sameRecord_of_closing closes)).sameCheckpoint
  · left
    rw [checkpointed_of_not_holds (fun speculative => absurd speculative elsewhere)] at closes
    exact (sameRecord_of_closing closes).sameCheckpoint

/-- A SPECULATE leaves the checkpoint of a replica that has moved on. -/
theorem checkpoint_of_movedOn {opened : Replica S} (leads : LeadsTo replica msg post)
    (isSpeculate : msg.isSpeculate = true) (moved : MovedOn opened replica) :
    SameCheckpoint post replica := by
  rcases leads.checkpoint_of_speculate isSpeculate with
    same | ⟨speculative, grown, grows, holds, _⟩
  · exact same
  · rcases grows.holds_iff.mp holds with ⟨_, _, holds⟩
    exact absurd holds ((moved speculative).2 _ _)

end LeadsTo

/-- The completing SYNC counts for no other log top: it leaves the checkpoint, or moves it to
that top, if there is a quorum for it without the SYNC. -/
theorem Completes.checkpoint_of_sync {replica state post : Replica S} {msg : Message}
    (completes : Completes replica msg) (leads : LeadsTo state msg post)
    (other : state.phase = .speculative →
      state.round ≠ replica.round ∨ state.kvSize - 1 ≠ replica.kvSize - 1) :
    SameCheckpoint post state ∨ state.phase = .speculative ∧ HoldsTopSyncs state ∧
      SameCheckpoint post (recorded state) := by
  have closes := leads.of_sync completes.isSync
  have same := closes.sameRecord.sameCheckpoint
  cases forms : canFormCheckpoint (state.store msg) with
  | none =>
      left
      rw [checkpointed, forms] at same
      exact same.trans ⟨state.store_chkptIdx msg, state.store_chkptHash msg⟩
  | some logIdx =>
      right
      obtain ⟨speculative, _, rfl, holds⟩ := canFormCheckpoint_eq_some_iff.mp forms
      rw [Replica.store_phase] at speculative
      rw [Replica.store_round, Replica.store_kvSize, Replica.store_kvStore] at holds
      rw [checkpointed, forms] at same
      have stored : SameCheckpoint (recorded (state.store msg)) (recorded state) := by
        simp [SameCheckpoint, recorded]
      exact ⟨speculative, (completes.holdsSyncs_store state (other speculative)).mp holds,
        same.trans stored⟩

/-- The completing SYNC leaves the checkpoint of a replica without a quorum for its top, if
that is another top. -/
theorem Completes.checkpoint_of_other {replica state post : Replica S} {msg : Message}
    (completes : Completes replica msg) (leads : LeadsTo state msg post)
    (other : state.phase = .speculative →
      state.round ≠ replica.round ∨ state.kvSize - 1 ≠ replica.kvSize - 1)
    (short : state.phase = .speculative → ¬HoldsTopSyncs state) :
    SameCheckpoint post state := by
  rcases completes.checkpoint_of_sync leads other with same | ⟨speculative, holds, _⟩
  · exact same
  · exact absurd holds (short speculative)

/-! ## The two orders -/

section Orders

variable {replica : Replica S} {msg y : Message}

/-- The SYNC first records the log top. -/
theorem Completes.recorded_of_leadsTo {synced : Replica S} (completes : Completes replica y)
    (speculative : replica.phase = .speculative) (nonempty : replica.kvSize ≠ 0)
    (first : LeadsTo replica y synced) : SameCheckpoint synced (recorded replica) := by
  have closes := first.of_sync completes.isSync
  rw [checkpointed_of_holds (by simpa using speculative) (by simpa using nonempty)
    completes.holds] at closes
  have stored : SameCheckpoint (recorded (replica.store y)) (recorded replica) := by
    simp [SameCheckpoint, recorded]
  exact closes.sameRecord.sameCheckpoint.trans stored

/-- The SYNC first: the grown log is recorded where its quorum is stored and nothing
disturbs the replica, and the shorter log elsewhere. -/
theorem checkpoint_of_sync_first {synced final grown : Replica S}
    (completes : Completes replica y) (isSpeculate : msg.isSpeculate = true)
    (speculative : replica.phase = .speculative) (nonempty : replica.kvSize ≠ 0)
    (grows : Grows replica grown) (first : LeadsTo replica y synced)
    (consistent : PhaseConsistent synced) (second : LeadsTo synced msg final)
    (stays : synced.round = replica.round ∨ ¬HoldsLaterSyncs replica) :
    (HoldsNextSyncs replica ∧ Undisturbed (recorded (replica.store y)) →
        SameCheckpoint final (recorded grown)) ∧
      (¬(HoldsNextSyncs replica ∧ Undisturbed (recorded (replica.store y))) →
        SameCheckpoint final (recorded replica)) := by
  have stored : SameCheckpoint (recorded (replica.store y)) (recorded replica) := by
    simp [SameCheckpoint, recorded]
  have closes := first.of_sync completes.isSync
  rw [checkpointed_of_holds (by simpa using speculative) (by simpa using nonempty)
    completes.holds] at closes
  have stays' : synced.round = (recorded (replica.store y)).round ∨
      ¬HoldsLaterSyncs (recorded (replica.store y)) := by
    rcases stays with round_eq | none
    · exact .inl (round_eq.trans (replica.store_round y).symm)
    · exact .inr fun holds => none (completes.holdsLaterSyncs holds)
  rcases closes.cases_of_stays (by simpa [recorded] using speculative) consistent stays' with
    ⟨calm, rfl⟩ | ⟨disturbed, moved⟩
  · rcases second.of_speculate isSpeculate (by simpa [recorded] using speculative) with
      ⟨grown', grows', closes'⟩
    have holds_iff := grows'.holds_iff.trans (completes.holdsNextSyncs_iff nonempty)
    constructor
    · rintro ⟨next, _⟩
      have stillSpeculative : grown'.phase = .speculative :=
        grows'.phase.trans (by simpa [recorded] using speculative)
      rw [checkpointed_of_holds stillSpeculative grows'.nonempty (holds_iff.mpr next)] at closes'
      exact closes'.sameRecord.sameCheckpoint.trans (grows.sameCheckpoint grows')
    · intro without
      have short : ¬HoldsTopSyncs grown' := fun holds => without ⟨holds_iff.mp holds, calm⟩
      rw [checkpointed_of_not_holds (fun _ => short)] at closes'
      exact (grows'.record.trans closes'.sameRecord).sameCheckpoint.trans stored
  · constructor
    · rintro ⟨_, calm⟩
      exact absurd calm disturbed
    · intro _
      exact (second.checkpoint_of_movedOn isSpeculate moved).trans
        (completes.recorded_of_leadsTo speculative nonempty first)

/-- The SPECULATE first: the grown log is recorded where its quorum is stored, and
nothing elsewhere. -/
theorem checkpoint_of_grow_first {grown middle final : Replica S}
    (completes : Completes replica y) (speculative : replica.phase = .speculative)
    (nonempty : replica.kvSize ≠ 0) (grows : Grows replica grown)
    (first : Closes (checkpointed grown) middle) (consistent : PhaseConsistent middle)
    (second : LeadsTo middle y final)
    (stays : middle.round = replica.round ∨ ¬HoldsLaterSyncs replica) :
    (HoldsNextSyncs replica → SameCheckpoint final (recorded grown)) ∧
      (¬HoldsNextSyncs replica → SameCheckpoint final replica) := by
  have stillSpeculative : grown.phase = .speculative := grows.phase.trans speculative
  have other : grown.kvSize - 1 ≠ replica.kvSize - 1 := by
    rw [grows.top_eq]
    exact (UInt64.ne_of_lt (sub_one_lt (UInt64.pos_iff_ne_zero.mpr nonempty))).symm
  have stays' : middle.round = grown.round ∨ ¬HoldsLaterSyncs grown := by
    rcases stays with round_eq | none
    · exact .inl (round_eq.trans grows.round.symm)
    · exact .inr fun holds => none (grows.holdsLaterSyncs holds)
  have keeps : ∀ {opened : Replica S}, opened.round = grown.round → MovedOn opened middle →
      SameCheckpoint final middle := by
    intro opened round_eq moved
    apply completes.checkpoint_of_other second
    · intro speculative
      left
      rw [← grows.round, ← round_eq]
      exact (moved speculative).1
    · intro speculative
      exact (moved speculative).2 _ _
  constructor
  · intro next
    rw [checkpointed_of_holds stillSpeculative grows.nonempty (grows.holds_iff.mpr next)] at first
    rcases first.cases_of_stays stillSpeculative consistent stays' with
      ⟨_, rfl⟩ | ⟨_, moved⟩
    · exact (second.of_sync completes.isSync).sameRecord.sameCheckpoint.trans
        (sameCheckpoint_again grown y)
    · exact (keeps rfl moved).trans first.sameRecord.sameCheckpoint
  · intro without
    have short : ¬HoldsTopSyncs grown := fun holds => without (grows.holds_iff.mp holds)
    rw [checkpointed_of_not_holds fun _ => short] at first
    rcases first.cases_of_stays stillSpeculative consistent stays' with
      ⟨_, rfl⟩ | ⟨_, moved⟩
    · exact (completes.checkpoint_of_other second (fun _ => .inr other) fun _ => short).trans
        grows.record.sameCheckpoint
    · exact (keeps rfl moved).trans (grows.record.trans first.sameRecord).sameCheckpoint

end Orders

/-! ## Growth in a run -/

/-- What keeps a checkpoint that is due from being lost to an append: the grown log has a
quorum too and no other guard is open, or the checkpoint is there already. -/
def KeepsCheckpoint (replica : Replica S) : Prop :=
  HoldsNextSyncs replica ∧ canEnterAlign (recorded replica) = none ∧
      canTimeoutProof replica = none ∨
    ¬HoldsNextSyncs replica ∧ SameCheckpoint replica (recorded replica)

section Runs

variable {config : Config} {nodeId : NodeId} {kvStore : S} {history : History S}
  {msg y : Message}

theorem LeadsTo.phaseConsistent (run : LocalRun config nodeId kvStore history)
    {post : Replica S} (leads : LeadsTo history.replica msg post) : PhaseConsistent post := by
  rcases leads with ⟨order, effects, steps⟩
  have next : history.next (.message order msg) = some
      ⟨post, history.calls ++ [⟨.message order msg, history.replica, post, effects⟩]⟩ :=
    History.next_eq_some_iff.mpr ⟨post, effects, steps, rfl⟩
  exact phase_consistency (run.tail next)

/-- What a SPECULATE and the SYNC that completes the quorum for the log top make of the
checkpoint: `synced` and `grown` are the states after the first of them, `syncedGrown` and
`grownSynced` those after both. -/
structure BothOrders (replica synced syncedGrown grown grownSynced : Replica S) : Prop where
  records : SameCheckpoint synced (recorded replica)
  serves : SameCheckpoint syncedGrown synced ∨ synced.phase = .speculative ∧ ∃ appended,
    Grows synced appended ∧ HoldsTopSyncs appended ∧ SameCheckpoint syncedGrown (recorded appended)
  appends : ∃ appended, Grows replica appended ∧
    (HoldsNextSyncs replica → SameCheckpoint grown (recorded appended)) ∧
      (¬HoldsNextSyncs replica → SameCheckpoint grown replica)
  ignores : SameCheckpoint grownSynced grown ∨ addU64 replica.round 1 = some grown.round ∧
    grown.phase = .speculative ∧ HoldsTopSyncs grown ∧ SameCheckpoint grownSynced (recorded grown)

section Served

variable {synced syncedGrown grown grownSynced : Replica S}

theorem bothOrders (run : LocalRun config nodeId kvStore history)
    (speculative : history.replica.phase = .speculative) (nonempty : history.replica.kvSize ≠ 0)
    (isSpeculate : msg.isSpeculate = true) (completes : Completes history.replica y)
    (syncFirst : LeadsTo history.replica y synced) (growNext : LeadsTo synced msg syncedGrown)
    (growFirst : LeadsTo history.replica msg grown) (syncNext : LeadsTo grown y grownSynced) :
    BothOrders history.replica synced syncedGrown grown grownSynced := by
  rcases growFirst.of_speculate isSpeculate speculative with ⟨appended, grows, closes⟩
  have stillSpeculative := grows.phase.trans speculative
  have both : HoldsNextSyncs history.replica → SameCheckpoint grown (recorded appended) := by
    intro next
    rw [checkpointed_of_holds stillSpeculative grows.nonempty (grows.holds_iff.mpr next)] at closes
    exact closes.sameRecord.sameCheckpoint
  have old : ¬HoldsNextSyncs history.replica → SameCheckpoint grown history.replica := by
    intro without
    have short : ¬HoldsTopSyncs appended := fun holds => without (grows.holds_iff.mp holds)
    rw [checkpointed_of_not_holds fun _ => short] at closes
    exact (grows.record.trans closes.sameRecord).sameCheckpoint
  constructor
  · exact completes.recorded_of_leadsTo speculative nonempty syncFirst
  · exact growNext.checkpoint_of_speculate isSpeculate
  · exact ⟨appended, grows, both, old⟩
  · by_cases stays : grown.round = history.replica.round
    · left
      obtain ⟨finalBoth, finalOld⟩ := checkpoint_of_grow_first completes speculative nonempty
        grows closes (growFirst.phaseConsistent run) syncNext (.inl stays)
      by_cases next : HoldsNextSyncs history.replica
      · exact (finalBoth next).trans (both next).symm
      · exact (finalOld next).trans (old next).symm
    · apply (completes.checkpoint_of_sync syncNext fun _ => .inl stays).imp_right
      rintro ⟨again, holds, final⟩
      have finished := closes.round_cases (by simpa using stillSpeculative)
        (growFirst.phaseConsistent run) again
      rw [checkpointed_round, grows.round] at finished
      exact ⟨finished.resolve_left stays, again, holds, final⟩

/-- The two orders leave the same checkpoint exactly where it is kept, unless a first call
finishes the round and a quorum of the next round is stored. -/
theorem sameCheckpoint_iff (run : LocalRun config nodeId kvStore history)
    (speculative : history.replica.phase = .speculative) (nonempty : history.replica.kvSize ≠ 0)
    (isSpeculate : msg.isSpeculate = true) (completes : Completes history.replica y)
    (syncFirst : LeadsTo history.replica y synced) (growNext : LeadsTo synced msg syncedGrown)
    (growFirst : LeadsTo history.replica msg grown) (syncNext : LeadsTo grown y grownSynced)
    (stays : synced.round = history.replica.round ∧ grown.round = history.replica.round ∨
      ¬HoldsLaterSyncs history.replica) :
    SameCheckpoint syncedGrown grownSynced ∧
        history.replica.kvSize - 1 ≤ grownSynced.chkptIdx ↔
      KeepsCheckpoint history.replica := by
  rcases growFirst.of_speculate isSpeculate speculative with ⟨appended, grows, closes⟩
  obtain ⟨syncBoth, syncOld⟩ := checkpoint_of_sync_first completes isSpeculate speculative
    nonempty grows syncFirst (syncFirst.phaseConsistent run) growNext
    (stays.imp_left And.left)
  obtain ⟨growBoth, growOld⟩ := checkpoint_of_grow_first completes speculative nonempty grows
    closes (growFirst.phaseConsistent run) syncNext (stays.imp_left And.right)
  have idx_lt : history.replica.kvSize - 1 < appended.kvSize - 1 := by
    rw [grows.top_eq]
    exact sub_one_lt (UInt64.pos_iff_ne_zero.mpr nonempty)
  rw [completes.undisturbed_iff] at syncBoth syncOld
  by_cases next : HoldsNextSyncs history.replica
  · have grownTop := growBoth next
    by_cases calm : canEnterAlign (recorded history.replica) = none ∧
        canTimeoutProof history.replica = none
    · -- both orders record the grown log
      have syncedTop := syncBoth ⟨next, calm⟩
      constructor
      · intro _
        exact .inl ⟨next, calm⟩
      · intro _
        constructor
        · exact syncedTop.trans grownTop.symm
        · rw [grownTop.1]
          exact UInt64.le_of_lt idx_lt
    · -- the guard that opens keeps the grown log from being recorded
      have syncedOld := syncOld fun both => calm both.2
      constructor
      · rintro ⟨same, _⟩
        have idx_eq := (syncedOld.symm.trans (same.trans grownTop)).1
        exact absurd idx_eq (UInt64.ne_of_lt idx_lt)
      · rintro (⟨_, calm'⟩ | ⟨without, _⟩)
        · exact absurd calm' calm
        · exact absurd next without
  · -- the append hides the old quorum, and the checkpoint stays what it was
    have grownOld := growOld next
    have syncedOld := syncOld fun both => next both.1
    constructor
    · rintro ⟨same, _⟩
      exact .inr ⟨next, grownOld.symm.trans (same.symm.trans syncedOld)⟩
    · rintro (⟨holds, _⟩ | ⟨_, kept⟩)
      · exact absurd holds next
      · constructor
        · exact syncedOld.trans (kept.symm.trans grownOld.symm)
        · rw [grownOld.1, kept.1]
          exact UInt64.le_refl _

end Served

end Runs

/-! ## A SYNC that comes late -/

section Late

attribute [local instance] plainHasher

/-- The state in which a call on `msg` leaves the replica. -/
def stateAfter (replica : Replica MemKvStore) (msg : Message) : Option (Replica MemKvStore) :=
  (processMessage .greatest replica msg).map Prod.fst

theorem leadsTo_get {replica : Replica MemKvStore} {msg : Message}
    (returns : (stateAfter replica msg).isSome = true) :
    LeadsTo replica msg ((stateAfter replica msg).get returns) := by
  rcases Option.map_eq_some_iff.mp (Option.some_get returns).symm with
    ⟨⟨post, effects⟩, steps, ended⟩
  rw [← ended]
  exact ⟨.greatest, effects, steps⟩

def oneMore : Message := .speculate "seq" 0 Hash.zero 0

/-- A replica appends two entries. -/
def twoEntries : History MemKvStore :=
  (execute History.next (History.start (Config.forTest 1 0 0) "r0" MemKvStore.new)
    [.message .greatest oneMore, .message .greatest oneMore]).get (by decide +kernel)

theorem localRun_twoEntries : LocalRun (Config.forTest 1 0 0) "r0" MemKvStore.new twoEntries :=
  reachable_of_execute (Option.some_get _).symm

/-- The SYNC for the second entry. -/
def topSync : Message := .sync "r0" 0 1 (topHash twoEntries.replica.kvStore) 0

theorem completes_topSync : Completes twoEntries.replica topSync := by
  constructor <;> decide +kernel

/-- The SYNC for a third entry. -/
def nextSync : Message :=
  let grown := (stateAfter twoEntries.replica oneMore).get (by decide +kernel)
  .sync "r0" 0 2 (topHash grown.kvStore) 0

/-- The replica hears of the third entry before it has appended it. -/
def syncAhead : History MemKvStore :=
  (execute History.next (History.start (Config.forTest 1 0 0) "r0" MemKvStore.new)
    [.message .greatest oneMore, .message .greatest oneMore,
      .message .greatest nextSync]).get (by decide +kernel)

theorem localRun_syncAhead : LocalRun (Config.forTest 1 0 0) "r0" MemKvStore.new syncAhead :=
  reachable_of_execute (Option.some_get _).symm

end Late

end Raspen
