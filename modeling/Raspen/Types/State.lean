import Raspen.Types.Message
import Mathlib.Data.Finset.Insert

/-!
# Log entries, the store interface and the replica state

`KvStoreOps` is the source's trait: the consensus crate only ever talks to the
store through it, so the handlers are written over any implementation.
-/

namespace Raspen

/-- One entry of the replicated log. -/
structure KvEntry where
  opHash : UInt64
  result : List UInt8
  prevHash : Hash
  deriving DecidableEq

/-- The digest of a log entry, SHA-256 over its bincode encoding.  Both crates
are outside the repository, so the function is a parameter. -/
class EntryHasher where
  entryHash : KvEntry → Hash

/-- Operations on the replicated log store.  A fallible operation returns its
error text; `size` can overflow, which is `none`. -/
class KvStoreOps (S : Type) where
  get : S → UInt64 → Except String (Option KvEntry)
  put : S → UInt64 → KvEntry → Except String S
  size : S → Option UInt64
  topHash : S → Hash
  hashAt : S → UInt64 → Except String Hash
  rebuildFromEntries : S → List (UInt64 × KvEntry) → Except String S

/-- `expect` on a store result: success is the only way past it. -/
theorem ok_of_toOption_eq_some {α : Type} {result : Except String α} {value : α}
    (succeeded : result.toOption = some value) : result = .ok value := by
  cases result with
  | error _ => contradiction
  | ok _ =>
      cases succeeded
      rfl

/-- All mutable state of one replica. -/
structure ReplicaState (S : Type) where
  nodeId : NodeId
  phase : Phase
  round : UInt64
  view : UInt64
  startIdx : UInt64
  kvSize : UInt64
  kvStore : S
  chkptIdx : UInt64
  chkptHash : Hash
  etaStar : UInt64
  inRepair : Bool
  proposedHistoryHash : UInt64
  syncMsgs : Finset Message
  ackMsgs : Finset Message
  chkptMsgs : Finset Message
  timeoutMsgs : Finset Message
  logMsgs : Finset Message
  repairHistoryMsgs : Finset Message
  repairPrepareMsgs : Finset Message
  repairCommitMsgs : Finset Message
  repairDoneMsgs : Finset Message

end Raspen
