import Raspen.Consensus.Applied
import Raspen.Quorum.Agreement

/-!
# Quorums of SYNCs

The SYNC guards count stored messages.  A SYNC is not determined by its sender, as
`etaStar` is free, so a count is one of replicas only while no sender has two
matching SYNCs stored.
-/

namespace Raspen

open KvStoreOps Raspen.Transition

variable {S : Type}

namespace Message

variable {round logIdx : UInt64} {logHash : Hash} {msg : Message}

theorem isSyncAt_of_isSyncFor (matched : msg.isSyncFor round logIdx logHash = true) :
    msg.isSyncAt round logIdx = true := by
  cases msg <;> simp_all [isSyncFor, isSyncAt]

theorem exists_sender_of_isSyncAt (matched : msg.isSyncAt round logIdx = true) :
    ∃ node, msg.sender = some node := by
  cases msg <;> simp_all [isSyncAt, sender]

end Message

theorem card_syncSenders {round logIdx : UInt64} {logHash : Hash} {msgs : Finset Message}
    (single : OnePerSender (Message.isSyncFor round logIdx logHash) msgs) :
    (senders (Message.isSyncFor round logIdx logHash) msgs).card =
      (msgs.filter (·.isSyncFor round logIdx logHash)).card :=
  (card_senders_iff (fun _ matched => Message.exists_sender_of_isSyncAt
    (Message.isSyncAt_of_isSyncFor matched)) msgs).mpr single

variable [KvStoreOps S] {config : Config} {nodeId : NodeId} {kvStore : S} {history : History S}

/-! ## The checkpoint quorum -/

/-- The index of the checkpoint a cue forms. -/
def Cue.formed : Cue → Option UInt64
  | .formCheckpoint logIdx => some logIdx
  | _ => none

/-- The senders of the SYNCs that match the replica's log top. -/
def Replica.syncSenders (replica : Replica S) (logIdx : UInt64) : Finset NodeId :=
  senders (Message.isSyncFor replica.round logIdx (topHash replica.kvStore)) replica.syncMsgs

/-- No sender has two SYNCs stored that match the replica's log top. -/
def Replica.SyncsOnce (replica : Replica S) (logIdx : UInt64) : Prop :=
  OnePerSender (Message.isSyncFor replica.round logIdx (topHash replica.kvStore)) replica.syncMsgs

instance (replica : Replica S) (logIdx : UInt64) : Decidable (replica.SyncsOnce logIdx) :=
  inferInstanceAs (Decidable (OnePerSender _ _))

/-- In a run that only forms checkpoints where no sender is counted twice, each of them
has a fast quorum of senders, among them one outside any smaller set. -/
theorem checkpoint_quorum (run : LocalRun config nodeId kvStore history)
    (single : ∀ call ∈ history.calls, ∀ firing ∈ call.cues, ∀ logIdx ∈ firing.2.formed,
      firing.1.SyncsOnce logIdx) :
    ∀ call ∈ history.calls, ∀ firing ∈ call.cues, ∀ logIdx ∈ firing.2.formed,
      logIdx = firing.1.kvSize - 1 ∧ config.fastQuorum ≤ (firing.1.syncSenders logIdx).card ∧
        ∀ faulty : Finset NodeId, faulty.card < config.fastQuorum →
          ∃ sender ∈ firing.1.syncSenders logIdx, sender ∉ faulty := by
  rintro call callMem ⟨replica, cue⟩ fires logIdx formed
  have once : replica.SyncsOnce logIdx := single call callMem (replica, cue) fires logIdx formed
  have config_eq := config_of_visits run (.inr ⟨call, callMem, cue, fires⟩)
  have guard := Call.guard_of_mem_cues fires
  cases cue with
  | formCheckpoint heard =>
      cases formed
      obtain ⟨_, _, top, counted⟩ := canFormCheckpoint_eq_some_iff.mp guard
      rw [config_eq, ← card_syncSenders once] at counted
      constructor
      · exact top
      · constructor
        · exact counted
        · intro faulty few
          exact Finset.exists_mem_notMem_of_card_lt_card (few.trans_le counted)
  | _ => contradiction

section Votes

attribute [local instance] plainHasher

/-- A replica appends an entry and hears the given SYNCs, with `etaStar` counting up. -/
def syncInputs (votes : List (NodeId × Hash)) : List Input :=
  .message .greatest (.speculate "seq" 0 Hash.zero 0) ::
    votes.mapIdx fun k vote => .message .greatest (.sync vote.1 0 0 vote.2 (UInt64.ofNat k))

/-- All five SYNCs that a replica of six hears come from one other. -/
def stuffedHistory : History MemKvStore :=
  (execute History.next (History.start (Config.forTest 6 1 1) "r1" MemKvStore.new)
    (syncInputs (List.replicate 5 ("r0", Hash.zero)))).get (by decide +kernel)

theorem localRun_stuffedHistory :
    LocalRun (Config.forTest 6 1 1) "r1" MemKvStore.new stuffedHistory :=
  reachable_of_execute (Option.some_get _).symm

/-- One sender makes the replica record a checkpoint. -/
theorem checkpoint_of_one_sender :
    (∃ call ∈ stuffedHistory.calls, ∃ firing ∈ call.cues, 0 ∈ firing.2.formed ∧
      firing.1.syncSenders 0 = {"r0"}) ∧
    ¬∀ history : History MemKvStore,
      LocalRun (Config.forTest 6 1 1) "r1" MemKvStore.new history →
      ∀ call ∈ history.calls, ∀ firing ∈ call.cues, ∀ logIdx ∈ firing.2.formed,
        (Config.forTest 6 1 1).fastQuorum ≤ (firing.1.syncSenders logIdx).card := by
  have alone : ∃ call ∈ stuffedHistory.calls, ∃ firing ∈ call.cues, 0 ∈ firing.2.formed ∧
      firing.1.syncSenders 0 = {"r0"} := by
    decide +kernel
  constructor
  · exact alone
  · intro quorum
    rcases alone with ⟨call, callMem, firing, fires, formed, senders_eq⟩
    have counted := quorum stuffedHistory localRun_stuffedHistory call callMem firing fires 0 formed
    rw [senders_eq] at counted
    contradiction

/-- Five replicas confirm the entry. -/
def confirmedHistory : History MemKvStore :=
  (execute History.next (History.start (Config.forTest 6 1 1) "r1" MemKvStore.new)
    (syncInputs (["r0", "r2", "r3", "r4", "r5"].map (·, Hash.zero)))).get (by decide +kernel)

theorem localRun_confirmedHistory :
    LocalRun (Config.forTest 6 1 1) "r1" MemKvStore.new confirmedHistory :=
  reachable_of_execute (Option.some_get _).symm

theorem checkpoint_quorum_confirmed :
    (∃ call ∈ confirmedHistory.calls, ∃ firing ∈ call.cues, firing.2 = .formCheckpoint 0) ∧
    ∀ call ∈ confirmedHistory.calls, ∀ firing ∈ call.cues, ∀ logIdx ∈ firing.2.formed,
      logIdx = firing.1.kvSize - 1 ∧
        (Config.forTest 6 1 1).fastQuorum ≤ (firing.1.syncSenders logIdx).card ∧
        ∀ faulty : Finset NodeId, faulty.card < (Config.forTest 6 1 1).fastQuorum →
          ∃ sender ∈ firing.1.syncSenders logIdx, sender ∉ faulty := by
  have once : ∀ call ∈ confirmedHistory.calls, ∀ firing ∈ call.cues,
      firing.2.formed = none ∨ firing.2.formed = some 0 ∧ firing.1.SyncsOnce 0 := by
    decide +kernel
  constructor
  · decide +kernel
  · apply checkpoint_quorum localRun_confirmedHistory
    intro call callMem firing fires logIdx formed
    rcases once call callMem firing fires with silent | ⟨atTop, single⟩
    · rw [silent] at formed
      contradiction
    · rw [atTop] at formed
      cases formed
      exact single

end Votes

/-! ## The conflict proof -/

/-- SYNCs for `logIdx` that members not heard from could still send, one each. -/
structure LateSyncs (replica : Replica S) (logIdx : UInt64) (late : Finset Message) : Prop where
  isSync : ∀ msg ∈ late, msg.isSyncAt replica.round logIdx = true
  silent : ∀ msg ∈ late, ∀ node ∈ msg.sender, node ∈ replica.config.nodesOrdered ∧
    node ∉ senders (Message.isSyncAt replica.round logIdx) replica.syncMsgs
  single : OnePerSender (Message.isSyncAt replica.round logIdx) late

/-- The stored SYNCs for `logIdx` that carry another hash than the replica's own. -/
def Replica.dissent (replica : Replica S) (logIdx : UInt64) : Finset Message :=
  replica.syncMsgs.filter fun msg => msg.isSyncAt replica.round logIdx &&
    !msg.isSyncFor replica.round logIdx (topHash replica.kvStore)

/-- Whatever silent members still send, the matching SYNCs stay short of a fast quorum. -/
def Replica.CheckpointImpossible (replica : Replica S) (logIdx : UInt64) : Prop :=
  ∀ late, LateSyncs replica logIdx late →
    (senders (Message.isSyncFor replica.round logIdx (topHash replica.kvStore))
      (replica.syncMsgs ∪ late)).card < replica.config.fastQuorum

section Conflict

variable {replica : Replica S} {logIdx : UInt64}

/-- Every stored SYNC for the index agrees or dissents. -/
theorem card_agree_add_dissent (replica : Replica S) (logIdx : UInt64) :
    (replica.syncMsgs.filter (·.isSyncFor replica.round logIdx (topHash replica.kvStore))).card +
        (replica.dissent logIdx).card =
      (replica.syncMsgs.filter (·.isSyncAt replica.round logIdx)).card := by
  rw [← Finset.card_filter_add_card_filter_not (s := replica.syncMsgs.filter
    (·.isSyncAt replica.round logIdx))
    (·.isSyncFor replica.round logIdx (topHash replica.kvStore) = true),
    Finset.filter_filter, Finset.filter_filter]
  congr 2
  · apply Finset.filter_congr
    intro msg _
    constructor
    · intro matched
      exact ⟨Message.isSyncAt_of_isSyncFor matched, matched⟩
    · exact And.right
  · apply Finset.filter_congr
    simp

/-- What late SYNCs can add are any votes of the silent members. -/
theorem checkpointImpossible_iff_voters :
    replica.CheckpointImpossible logIdx ↔
      ∀ voters ⊆ replica.config.nodesOrdered.toFinset \
        senders (Message.isSyncAt replica.round logIdx) replica.syncMsgs,
        (replica.syncSenders logIdx ∪ voters).card < replica.config.fastQuorum := by
  simp only [Replica.CheckpointImpossible, senders_union]
  constructor
  · intro impossible voters silent
    have late : LateSyncs replica logIdx (voters.image fun node =>
        .sync node replica.round logIdx (topHash replica.kvStore) 0) := by
      constructor
      · simp [Message.isSyncAt]
      · intro msg msgMem sender sent
        rcases Finset.mem_image.mp msgMem with ⟨node, voted, rfl⟩
        cases sent
        have isSilent := silent voted
        rw [Finset.mem_sdiff, List.mem_toFinset] at isSilent
        exact isSilent
      · intro first firstMem second secondMem same
        rcases Finset.mem_image.mp (Finset.mem_filter.mp firstMem).1 with ⟨node, _, rfl⟩
        rcases Finset.mem_image.mp (Finset.mem_filter.mp secondMem).1 with ⟨other, _, rfl⟩
        cases same
        rfl
    have voters_eq : senders (Message.isSyncFor replica.round logIdx (topHash replica.kvStore))
        (voters.image fun node =>
          .sync node replica.round logIdx (topHash replica.kvStore) 0) = voters := by
      ext node
      simp [mem_senders_iff, Message.isSyncFor, Message.sender]
    have short := impossible _ late
    rw [voters_eq] at short
    exact short
  · intro short late lateSyncs
    apply short
    intro node voted
    rcases mem_senders_iff.mp voted with ⟨msg, sent, _, isSender⟩
    rw [Finset.mem_sdiff, List.mem_toFinset]
    exact lateSyncs.silent msg sent node isSender

end Conflict

/-- In every state of a run of `n` replicas in which the guard of the conflict proof is
open, with SYNCs of members only and one for each of them, a checkpoint is impossible
exactly when more than `p` SYNCs dissent. -/
theorem conflict_proof_possible_iff {n f p : Nat}
    (run : LocalRun (Config.forTest n f p) nodeId kvStore history) {replica : Replica S}
    (visits : history.Visits replica) {logIdx : UInt64}
    (guard : canConflictProof replica = some logIdx)
    (members : senders (Message.isSyncAt replica.round logIdx) replica.syncMsgs ⊆
      (Config.forTest n f p).nodesOrdered.toFinset)
    (single : OnePerSender (Message.isSyncAt replica.round logIdx) replica.syncMsgs) :
    logIdx = replica.kvSize - 1 ∧
      (replica.CheckpointImpossible logIdx ↔ p < (replica.dissent logIdx).card) ∧
      (n - (replica.syncMsgs.filter (·.isSyncAt replica.round logIdx)).card <
          replica.config.fastQuorum - (replica.syncMsgs.filter
            (·.isSyncFor replica.round logIdx (topHash replica.kvStore))).card ↔
        p < (replica.dissent logIdx).card) := by
  have config_eq := config_of_visits run visits
  obtain ⟨_, _, _, top, _, few⟩ := canConflictProof_eq_some_iff.mp guard
  have once : replica.SyncsOnce logIdx := single.imp fun _ => Message.isSyncAt_of_isSyncFor
  have consistent := card_syncSenders once
  have total := (card_senders_iff (fun _ => Message.exists_sender_of_isSyncAt)
    replica.syncMsgs).mpr single
  have split := card_agree_add_dissent replica logIdx
  have memberCard : (Config.forTest n f p).nodesOrdered.toFinset.card = n := by
    rw [List.toFinset_card_of_nodup (Config.nodup_forTest n f p)]
    simp [Config.forTest]
  have heard := Finset.card_le_card members
  have heardSub : replica.syncSenders logIdx ⊆
      senders (Message.isSyncAt replica.round logIdx) replica.syncMsgs := by
    intro node voted
    rcases mem_senders_iff.mp voted with ⟨msg, stored, matched, sent⟩
    exact mem_senders_iff.mpr ⟨msg, stored, Message.isSyncAt_of_isSyncFor matched, sent⟩
  have fast : replica.config.fastQuorum = n - p := congrArg Config.fastQuorum config_eq
  rw [checkpointImpossible_iff_voters, config_eq, Quorum.out_of_reach_iff members heardSub,
    memberCard, total, Replica.syncSenders, consistent, ← config_eq, fast]
  rw [memberCard, total] at heard
  rw [fast] at few
  constructor
  · exact top
  · constructor
    · omega
    · omega

section Votes

attribute [local instance] plainHasher

/-- Three of four replicas agree on the entry. -/
def agreedHistory : History MemKvStore :=
  (execute History.next (History.start (Config.forTest 4 1 0) "r1" MemKvStore.new)
    (syncInputs (["r0", "r2", "r3"].map (·, Hash.zero)))).get (by decide +kernel)

theorem localRun_agreedHistory :
    LocalRun (Config.forTest 4 1 0) "r1" MemKvStore.new agreedHistory :=
  reachable_of_execute (Option.some_get _).symm

/-- A conflict is proved although the last replica would complete the quorum. -/
theorem conflict_proof_premature :
    ¬∀ history : History MemKvStore,
      LocalRun (Config.forTest 4 1 0) "r1" MemKvStore.new history →
      ∀ replica, history.Visits replica → ∀ logIdx, canConflictProof replica = some logIdx →
        senders (Message.isSyncAt replica.round logIdx) replica.syncMsgs ⊆
          (Config.forTest 4 1 0).nodesOrdered.toFinset →
        OnePerSender (Message.isSyncAt replica.round logIdx) replica.syncMsgs →
        replica.CheckpointImpossible logIdx := by
  intro sound
  have raised : ∃ call ∈ agreedHistory.calls, ∃ firing ∈ call.cues,
      canConflictProof firing.1 = some 0 ∧
        senders (Message.isSyncAt firing.1.round 0) firing.1.syncMsgs ⊆
          (Config.forTest 4 1 0).nodesOrdered.toFinset ∧
        OnePerSender (Message.isSyncAt firing.1.round 0) firing.1.syncMsgs ∧
        {"r1"} ⊆ firing.1.config.nodesOrdered.toFinset \
          senders (Message.isSyncAt firing.1.round 0) firing.1.syncMsgs ∧
        firing.1.config.fastQuorum ≤ (firing.1.syncSenders 0 ∪ {"r1"}).card := by
    decide +kernel
  rcases raised with ⟨call, callMem, ⟨replica, cue⟩, fires, guard, members, single, silent, enough⟩
  have impossible := sound agreedHistory localRun_agreedHistory replica
    (.inr ⟨call, callMem, cue, fires⟩) 0 guard members single
  have short := checkpointImpossible_iff_voters.mp impossible {"r1"} silent
  exact absurd enough (Nat.not_le.mpr short)

/-- One of three SYNCs names another hash. -/
def disputedHistory : History MemKvStore :=
  (execute History.next (History.start (Config.forTest 4 1 0) "r1" MemKvStore.new)
    (syncInputs [("r0", Hash.fill 1), ("r2", Hash.zero), ("r3", Hash.zero)])).get
      (by decide +kernel)

theorem localRun_disputedHistory :
    LocalRun (Config.forTest 4 1 0) "r1" MemKvStore.new disputedHistory :=
  reachable_of_execute (Option.some_get _).symm

theorem conflict_proof_possible_disputed :
    ∃ call ∈ disputedHistory.calls, ∃ firing ∈ call.cues, firing.2 = .conflictProof 0 ∧
      firing.1.CheckpointImpossible 0 := by
  have raised : ∃ call ∈ disputedHistory.calls, ∃ firing ∈ call.cues,
      firing.2 = .conflictProof 0 ∧ canConflictProof firing.1 = some 0 ∧
        senders (Message.isSyncAt firing.1.round 0) firing.1.syncMsgs ⊆
          (Config.forTest 4 1 0).nodesOrdered.toFinset ∧
        OnePerSender (Message.isSyncAt firing.1.round 0) firing.1.syncMsgs ∧
        0 < (firing.1.dissent 0).card := by
    decide +kernel
  rcases raised with ⟨call, callMem, firing, fires, isProof, guard, members, single, disputed⟩
  have iff := conflict_proof_possible_iff localRun_disputedHistory
    (.inr ⟨call, callMem, firing.2, fires⟩) guard members single
  exact ⟨call, callMem, firing, fires, isProof, iff.2.1.mpr disputed⟩

end Votes

end Raspen
