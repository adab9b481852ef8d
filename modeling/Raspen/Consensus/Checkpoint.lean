import Raspen.Consensus.Core
import Mathlib.Data.Finset.Card

/-!
# Checkpoint sub-protocol
-/

namespace Raspen

open KvStoreOps Raspen.Transition

variable {S : Type}

/-- The log top, when a `SyncTimeout` fires on a non-empty speculative log. -/
def canSendSyncOnEvent (replica : Replica S) (event : Event) : Option UInt64 :=
  if event ≠ .syncTimeout then none
  else if replica.phase ≠ .speculative then none
  else if replica.kvSize = 0 then none
  else some (replica.kvSize - 1)

/-- The log top, when the log has grown past the last checkpoint index. -/
def canSendSyncThreshold (replica : Replica S) : Option UInt64 :=
  if replica.phase ≠ .speculative then none
  else if replica.kvSize = 0 then none
  else if replica.kvSize ≤ replica.chkptIdx then none
  else some (replica.kvSize - 1)

variable [KvStoreOps S]

/-- Broadcast a SYNC for the given log index. No state change. -/
def handleSendSync (replica : Replica S) (logIdx : UInt64) : Option (Outcome S) :=
  some (replica, [.broadcast (.sync replica.nodeId replica.round logIdx
    (topHash replica.kvStore) replica.etaStar)])

/-- The log top, when `fast_quorum` stored SYNCs match the replica's own
`(round, log_idx, log_hash)`. -/
def canFormCheckpoint (replica : Replica S) : Option UInt64 :=
  if replica.phase ≠ .speculative then none
  else if replica.kvSize = 0 then none
  else
    let logIdx := replica.kvSize - 1
    let expectedHash := topHash replica.kvStore
    let quorumCount :=
      (replica.syncMsgs.filter (·.isSyncFor replica.round logIdx expectedHash)).card
    if replica.config.fastQuorum ≤ quorumCount then some logIdx else none

/-- Record the checkpoint and broadcast a CHECKPOINT message. -/
def handleFormCheckpoint (replica : Replica S) (logIdx : UInt64) : Option (Outcome S) :=
  let logHash := topHash replica.kvStore
  some ({ replica with chkptIdx := logIdx, chkptHash := logHash },
    [.broadcast (.checkpoint replica.nodeId replica.round logIdx logHash)])

/-- Process an incoming SYNC: store it, then check the checkpoint quorum. -/
def onReceiveSync (msg : Message) : ReplicaStage S where
  store := Replica.storeIf Message.isSync msg
  listen replica := (canFormCheckpoint replica).map .formCheckpoint

theorem canFormCheckpoint_eq_some_iff {replica : Replica S} {logIdx : UInt64} :
    canFormCheckpoint replica = some logIdx ↔
      replica.phase = .speculative ∧ replica.kvSize ≠ 0 ∧ logIdx = replica.kvSize - 1 ∧
        replica.config.fastQuorum ≤ (replica.syncMsgs.filter
          (·.isSyncFor replica.round logIdx (topHash replica.kvStore))).card := by
  unfold canFormCheckpoint
  split
  · simp_all
  · split
    · simp_all
    · rename_i speculative nonempty
      simp only [Option.ite_none_right_eq_some, Option.some.injEq]
      constructor
      · rintro ⟨quorum, rfl⟩
        exact ⟨not_not.mp speculative, nonempty, rfl, quorum⟩
      · rintro ⟨_, _, rfl, quorum⟩
        exact ⟨quorum, rfl⟩

end Raspen
