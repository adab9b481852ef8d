import Raspen.Consensus.Phases
import Mathlib.Data.Finset.Card
import Mathlib.Data.Finset.Union

/-!
# Stored evidence for the REPAIR phases

The vote guards count stored messages.  For a fixed view, round and hash a vote
is determined by its sender, so the counts are counts of distinct senders.
-/

namespace Raspen

open Raspen.Transition

variable {S : Type}

/-! ## Distinct senders -/

/-- Distinct senders of the messages that match a pattern. -/
def senders (pattern : Message → Bool) (msgs : Finset Message) : Finset NodeId :=
  (msgs.filter (pattern ·)).biUnion fun msg => msg.sender.toFinset

theorem mem_senders_iff {pattern : Message → Bool} {msgs : Finset Message} {node : NodeId} :
    node ∈ senders pattern msgs ↔
      ∃ msg ∈ msgs, pattern msg = true ∧ msg.sender = some node := by
  simp only [senders, Finset.mem_biUnion, Finset.mem_filter, Option.mem_toFinset,
    Option.mem_def, and_assoc]

theorem senders_mono {pattern : Message → Bool} {small large : Finset Message}
    (sub : small ⊆ large) : senders pattern small ⊆ senders pattern large :=
  Finset.biUnion_subset_biUnion_of_subset_left _ (Finset.filter_subset_filter _ sub)

/-- The LOG senders the leader counts are distinct senders in this sense. -/
theorem logSenders_eq_senders (view round : UInt64) (msgs : Finset Message) :
    logSenders view round msgs = senders (Message.isLogMsgAt view round) msgs := by
  ext node
  rw [mem_senders_iff]
  simp only [logSenders, Finset.mem_biUnion]
  constructor
  · rintro ⟨msg, stored, nodeMem⟩
    refine ⟨msg, stored, ?_⟩
    cases msg <;> simp_all [Message.isLogMsgAt, Message.sender]
    split at nodeMem <;> simp_all
  · rintro ⟨msg, stored, matched, senderEq⟩
    refine ⟨msg, stored, ?_⟩
    cases msg <;> simp_all [Message.isLogMsgAt, Message.sender]

theorem senders_union (pattern : Message → Bool) (first second : Finset Message) :
    senders pattern (first ∪ second) = senders pattern first ∪ senders pattern second := by
  rw [senders, Finset.filter_union, Finset.union_biUnion]
  rfl

/-- A counted sender has sent a matching message. -/
theorem map_senders_subset (pattern : Message → Bool) (msgs : Finset Message) :
    (senders pattern msgs).map Function.Embedding.some ⊆
      (msgs.filter (pattern ·)).image Message.sender := by
  intro source sourceMem
  rcases Finset.mem_map.mp sourceMem with ⟨node, nodeMem, rfl⟩
  rcases mem_senders_iff.mp nodeMem with ⟨msg, stored, matched, sent⟩
  exact Finset.mem_image.mpr ⟨msg, Finset.mem_filter.mpr ⟨stored, matched⟩, sent⟩

/-- There are at most as many senders as matching messages. -/
theorem card_senders_le (pattern : Message → Bool) (msgs : Finset Message) :
    (senders pattern msgs).card ≤ (msgs.filter (pattern ·)).card := by
  calc
    (senders pattern msgs).card = ((senders pattern msgs).map Function.Embedding.some).card :=
      (Finset.card_map _).symm
    _ ≤ ((msgs.filter (pattern ·)).image Message.sender).card :=
      Finset.card_le_card (map_senders_subset pattern msgs)
    _ ≤ (msgs.filter (pattern ·)).card := Finset.card_image_le

/-- No two matching messages have one sender. -/
def OnePerSender (pattern : Message → Bool) (msgs : Finset Message) : Prop :=
  ∀ first ∈ msgs.filter (pattern ·), ∀ second ∈ msgs.filter (pattern ·),
    first.sender = second.sender → first = second

instance (pattern : Message → Bool) (msgs : Finset Message) :
    Decidable (OnePerSender pattern msgs) :=
  inferInstanceAs (Decidable (∀ first ∈ msgs.filter (pattern ·), _))

theorem OnePerSender.imp {pattern weaker : Message → Bool} {msgs : Finset Message}
    (single : OnePerSender weaker msgs)
    (implies : ∀ msg, pattern msg = true → weaker msg = true) : OnePerSender pattern msgs := by
  have sub : msgs.filter (pattern ·) ⊆ msgs.filter (weaker ·) :=
    Finset.monotone_filter_right msgs fun msg _ => implies msg
  intro first firstMem second secondMem
  exact single first (sub firstMem) second (sub secondMem)

/-- Counting matching messages counts their senders exactly when no sender is counted
twice. -/
theorem card_senders_iff {pattern : Message → Bool}
    (named : ∀ msg, pattern msg = true → ∃ node, msg.sender = some node) (msgs : Finset Message) :
    (senders pattern msgs).card = (msgs.filter (pattern ·)).card ↔ OnePerSender pattern msgs := by
  have named_eq : (senders pattern msgs).map Function.Embedding.some =
      (msgs.filter (pattern ·)).image Message.sender := by
    apply Finset.Subset.antisymm (map_senders_subset pattern msgs)
    intro source sourceMem
    rcases Finset.mem_image.mp sourceMem with ⟨msg, matching, rfl⟩
    obtain ⟨stored, matched⟩ := Finset.mem_filter.mp matching
    rcases named msg matched with ⟨node, sent⟩
    exact Finset.mem_map.mpr
      ⟨node, mem_senders_iff.mpr ⟨msg, stored, matched, sent⟩, sent.symm⟩
  rw [← Finset.card_map Function.Embedding.some, named_eq, Finset.card_image_iff]
  rfl

/-- As many messages as a bound come from as many senders, where each sender counts once, and
from one outside any smaller set. -/
theorem OnePerSender.senders_of_count {pattern : Message → Bool} {msgs : Finset Message}
    (once : OnePerSender pattern msgs)
    (named : ∀ msg, pattern msg = true → ∃ node, msg.sender = some node) {bound : Nat}
    (counted : bound ≤ (msgs.filter (pattern ·)).card) :
    bound ≤ (senders pattern msgs).card ∧
      ∀ faulty : Finset NodeId, faulty.card < bound →
        ∃ sender ∈ senders pattern msgs, sender ∉ faulty := by
  have quorum : bound ≤ (senders pattern msgs).card := by
    rw [(card_senders_iff named msgs).mpr once]
    exact counted
  constructor
  · exact quorum
  · intro faulty few
    exact Finset.exists_mem_notMem_of_card_lt_card (few.trans_le quorum)

/-- When the sender determines a matching message, counting messages counts
senders. -/
theorem card_senders {pattern : Message → Bool} (vote : NodeId → Message)
    (voteSender : ∀ node, (vote node).sender = some node)
    (pattern_iff : ∀ msg, pattern msg = true ↔ ∃ node, msg = vote node)
    (msgs : Finset Message) :
    (senders pattern msgs).card = (msgs.filter (pattern ·)).card := by
  apply (card_senders_iff _ msgs).mpr
  · intro first firstMem second secondMem same
    obtain ⟨firstNode, rfl⟩ := (pattern_iff first).mp (Finset.mem_filter.mp firstMem).2
    obtain ⟨secondNode, rfl⟩ := (pattern_iff second).mp (Finset.mem_filter.mp secondMem).2
    rw [voteSender, voteSender] at same
    exact congrArg vote (Option.some.inj same)
  · intro msg matched
    obtain ⟨node, rfl⟩ := (pattern_iff msg).mp matched
    exact ⟨node, voteSender node⟩

theorem card_timeoutSenders (round logIdx : UInt64) (msgs : Finset Message) :
    (senders (Message.isTimeoutAt round logIdx) msgs).card =
      (msgs.filter (·.isTimeoutAt round logIdx)).card :=
  card_senders (fun node => .timeoutMsg node round logIdx) (fun _ => rfl)
    (fun _ => Message.isTimeoutAt_iff) msgs

theorem card_prepareSenders (view round hist : UInt64) (msgs : Finset Message) :
    (senders (Message.isRepairPrepareFor view round hist) msgs).card =
      (msgs.filter (·.isRepairPrepareFor view round hist)).card :=
  card_senders (fun node => .repairPrepare node view round hist) (fun _ => rfl)
    (fun _ => Message.isRepairPrepareFor_iff) msgs

theorem card_commitSenders (view round hist : UInt64) (msgs : Finset Message) :
    (senders (Message.isRepairCommitFor view round hist) msgs).card =
      (msgs.filter (·.isRepairCommitFor view round hist)).card :=
  card_senders (fun node => .repairCommit node view round hist) (fun _ => rfl)
    (fun _ => Message.isRepairCommitFor_iff) msgs

/-! ## The evidence invariant -/

/-- What a replica must have stored to be in PreparePhase or CommitPhase. -/
structure Evidence (replica : Replica S) : Prop where
  proposed : replica.phase = .preparePhase ∨ replica.phase = .commitPhase →
    (∃ sender, Message.repairHistory sender replica.view replica.round
      replica.proposedHistoryHash ∈ replica.repairHistoryMsgs) ∨
    (replica.isLeader = true ∧ replica.config.byzQuorum ≤
      (senders (Message.isLogMsgAt replica.view replica.round) replica.logMsgs).card)
  prepared : replica.phase = .commitPhase →
    replica.config.byzQuorum ≤ (senders (Message.isRepairPrepareFor replica.view replica.round
      replica.proposedHistoryHash) replica.repairPrepareMsgs).card

theorem evidence_new (config : Config) (nodeId : NodeId) (kvStore : S) :
    Evidence (Replica.new config nodeId kvStore) where
  proposed phase := by simp [Replica.new] at phase
  prepared phase := by simp [Replica.new] at phase

/-- Leadership depends on nothing that a quiet step changes. -/
theorem isLeader_congr {replica next : Replica S} (config : next.config = replica.config)
    (view : next.view = replica.view) (nodeId : next.nodeId = replica.nodeId) :
    next.isLeader = replica.isLeader := by
  unfold Replica.isLeader
  rw [config, view, nodeId]

namespace Evidence

variable {replica next : Replica S}

/-- Evidence is only ever added to. -/
theorem of_quietStep (evidence : Evidence replica) (quiet : QuietStep replica next) :
    Evidence next := by
  rcases quiet.log with ⟨phaseEq, _⟩ | ⟨nextOutside, _⟩
  · constructor
    · intro phase
      rw [phaseEq] at phase
      rw [quiet.view, quiet.round, quiet.proposed, quiet.config,
        isLeader_congr quiet.config quiet.view quiet.nodeId]
      rcases evidence.proposed phase with ⟨sender, stored⟩ | ⟨leader, quorum⟩
      · exact .inl ⟨sender, quiet.repairHistoryMsgs stored⟩
      · exact .inr ⟨leader, quorum.trans (Finset.card_le_card (senders_mono quiet.logMsgs))⟩
    · intro phase
      rw [phaseEq] at phase
      rw [quiet.view, quiet.round, quiet.proposed, quiet.config]
      exact (evidence.prepared phase).trans
        (Finset.card_le_card (senders_mono quiet.repairPrepareMsgs))
  · constructor
    · intro phase
      rcases phase with preparing | committing
      · rw [preparing] at nextOutside
        contradiction
      · rw [committing] at nextOutside
        contradiction
    · intro committing
      rw [committing] at nextOutside
      contradiction

variable [KvStoreOps S]

/-- Every REPAIR move into a voting phase brings its own evidence. -/
theorem of_repairMove {effects : List Effect} (evidence : Evidence replica)
    (move : RepairMove replica next effects) : Evidence next := by
  cases move with
  | quiet quiet _ => exact evidence.of_quietStep quiet
  | enter _ _ => exact ⟨by simp, by simp⟩
  | propose guard =>
      rcases canBroadcastHistory_eq_some_iff.mp guard with ⟨_, leader, quorum, _⟩
      rw [logSenders_eq_senders] at quorum
      exact ⟨fun _ => .inr ⟨leader, quorum⟩, by simp⟩
  | vote _ stored => exact ⟨fun _ => .inl ⟨_, stored⟩, by simp⟩
  | lock guard =>
      rcases canRepairCommit_eq_some_iff.mp guard with ⟨preparing, rfl, quorum⟩
      rw [← card_prepareSenders] at quorum
      exact ⟨fun _ => evidence.proposed (.inl preparing), fun _ => quorum⟩
  | apply _ _ _ => exact ⟨by simp, by simp⟩
  | catchup _ _ => exact ⟨by simp, by simp⟩
  | changeView collecting _ => exact ⟨by simp [collecting], by simp [collecting]⟩

end Evidence

variable [KvStoreOps S] {config : Config} {nodeId : NodeId} {kvStore : S} {history : History S}

theorem evidence_of_localRun (run : LocalRun config nodeId kvStore history) :
    Evidence history.replica :=
  run.repair_invariant (P := fun replica _ => Evidence replica)
    (evidence_new config nodeId kvStore) Evidence.of_repairMove

/-- In every reachable state the REPAIR phases are backed by stored messages. -/
theorem repair_evidence (run : LocalRun config nodeId kvStore history) :
    Evidence history.replica :=
  evidence_of_localRun run

section Solo

attribute [local instance] plainHasher

theorem repair_evidence_solo :
    soloHistory.replica.phase = .commitPhase ∧ Evidence soloHistory.replica :=
  ⟨by decide +kernel, repair_evidence localRun_soloHistory⟩

end Solo

end Raspen
