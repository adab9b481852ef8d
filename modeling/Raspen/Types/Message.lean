import Mathlib.Algebra.Group.Nat.Defs
import Mathlib.Data.List.Nodup

/-!
# Messages, effects, events and configuration

The wire vocabulary of the protocol.  Every `u64` of the source is a `UInt64`;
its additions are checked, so an overflow is a panic and never a wrapped value.
-/

namespace Raspen

/-- A digest, as a byte string.  The source fixes 32 bytes; the length is left
open here because an injective `entryHash` has no 32-byte range to land in. -/
abbrev Hash := List UInt8

/-- Node identifier. -/
abbrev NodeId := String

/-- Sequence number assigned by the sequencer. -/
abbrev Eta := UInt64

/-- The digest `[b; 32]`. -/
def Hash.fill (b : UInt8) : Hash :=
  List.replicate 32 b

/-- The all-zero digest `[0u8; 32]`. -/
def Hash.zero : Hash :=
  Hash.fill 0

/-- Checked addition on `u64`: an overflow panics, written `none`. -/
def addU64 (a b : UInt64) : Option UInt64 :=
  if a.toNat + b.toNat < 2 ^ 64 then some (a + b) else none

theorem toNat_of_addU64 {a b c : UInt64} (sum : addU64 a b = some c) :
    c.toNat = a.toNat + b.toNat := by
  unfold addU64 at sum
  split at sum
  · rename_i small
    cases sum
    rw [UInt64.toNat_add, Nat.mod_eq_of_lt small]
  · contradiction

theorem addU64_eq {a b c : UInt64} (sum : addU64 a b = some c) : c = a + b := by
  unfold addU64 at sum
  split at sum
  · exact (Option.some.inj sum).symm
  · contradiction

theorem lt_of_addU64_one {a next : UInt64} (sum : addU64 a 1 = some next) : a < next := by
  rw [UInt64.lt_iff_toNat_lt, toNat_of_addU64 sum]
  exact Nat.lt_succ_self _

/-- The predecessor of a positive `u64` does not wrap. -/
theorem toNat_sub_one {size : UInt64} (positive : 0 < size) :
    0 < size.toNat ∧ (size - 1).toNat = size.toNat - 1 := by
  have bound : 0 < size.toNat := UInt64.lt_iff_toNat_lt.mp positive
  exact ⟨bound, UInt64.toNat_sub_of_le size 1 (UInt64.le_iff_toNat_le.mpr bound)⟩

theorem sub_one_lt {size : UInt64} (positive : 0 < size) : size - 1 < size := by
  have predecessor := toNat_sub_one positive
  rw [UInt64.lt_iff_toNat_lt]
  omega

/-- Every protocol message; `sender` is the source's field `from`. -/
inductive Message
  | speculate (fromSeq : NodeId) (round : UInt64) (opHash : Hash) (eta : Eta)
  | specReply (sender : NodeId) (round logIdx : UInt64) (logHash : Hash)
  | sync (sender : NodeId) (round logIdx : UInt64) (logHash : Hash) (etaStar : UInt64)
  | checkpoint (sender : NodeId) (round logIdx : UInt64) (logHash : Hash)
  | stateRequest (sender : NodeId) (chkptIdx : UInt64)
  | stateReply (sender : NodeId) (chkptIdx : UInt64) (chkptHash : Hash)
  | timeoutMsg (sender : NodeId) (round logIdx : UInt64)
  | timeoutProof (round logIdx : UInt64)
  | conflictProof (round logIdx : UInt64)
  | logMsg (sender : NodeId) (view round : UInt64) (logHash : Hash)
  | repairHistory (sender : NodeId) (view round historyHash : UInt64)
  | repairPrepare (sender : NodeId) (view round historyHash : UInt64)
  | repairCommit (sender : NodeId) (view round historyHash : UInt64)
  | repairDone (sender : NodeId) (view round historyHash : UInt64)
  | committedReply (sender : NodeId) (round logIdx : UInt64)
  deriving DecidableEq

namespace Message

/-- The `from` field.  `Speculate` comes from the sequencer and the two proofs
are anonymous, so these three name no replica. -/
def sender : Message → Option NodeId
  | speculate .. | timeoutProof .. | conflictProof .. => none
  | specReply sender .. | sync sender .. | checkpoint sender .. | stateRequest sender ..
  | stateReply sender .. | timeoutMsg sender .. | logMsg sender .. | repairHistory sender ..
  | repairPrepare sender .. | repairCommit sender .. | repairDone sender ..
  | committedReply sender .. => some sender

/-! ## Message patterns -/

def isSync : Message → Bool
  | sync .. => true
  | _ => false

def isCheckpoint : Message → Bool
  | checkpoint .. => true
  | _ => false

def isTimeoutMsg : Message → Bool
  | timeoutMsg .. => true
  | _ => false

def isLogMsg : Message → Bool
  | logMsg .. => true
  | _ => false

def isRepairHistory : Message → Bool
  | repairHistory .. => true
  | _ => false

def isRepairPrepare : Message → Bool
  | repairPrepare .. => true
  | _ => false

def isRepairCommit : Message → Bool
  | repairCommit .. => true
  | _ => false

def isRepairDone : Message → Bool
  | repairDone .. => true
  | _ => false

/-- A SYNC for `(round, logIdx)`, whatever its hash. -/
def isSyncAt (round logIdx : UInt64) : Message → Bool
  | sync _ r li _ _ => r == round && li == logIdx
  | _ => false

/-- A SYNC for `(round, logIdx)` that carries `logHash`. -/
def isSyncFor (round logIdx : UInt64) (logHash : Hash) : Message → Bool
  | sync _ r li lh _ => r == round && li == logIdx && lh == logHash
  | _ => false

/-- A CHECKPOINT for `(round, logIdx)`. -/
def isCheckpointAt (round logIdx : UInt64) : Message → Bool
  | checkpoint _ r li _ => r == round && li == logIdx
  | _ => false

/-- A TIMEOUT for `(round, logIdx)`. -/
def isTimeoutAt (round logIdx : UInt64) : Message → Bool
  | timeoutMsg _ r li => r == round && li == logIdx
  | _ => false

/-- A LOG for `(view, round)`. -/
def isLogMsgAt (view round : UInt64) : Message → Bool
  | logMsg _ v r _ => v == view && r == round
  | _ => false

/-- A REPAIR-HISTORY for `(view, round)`. -/
def isRepairHistoryAt (view round : UInt64) : Message → Bool
  | repairHistory _ v r _ => v == view && r == round
  | _ => false

/-- A REPAIR-PREPARE for `(view, round)` that votes for `hist`. -/
def isRepairPrepareFor (view round hist : UInt64) : Message → Bool
  | repairPrepare _ v r h => v == view && r == round && h == hist
  | _ => false

/-- A REPAIR-COMMIT for `(view, round)` that votes for `hist`. -/
def isRepairCommitFor (view round hist : UInt64) : Message → Bool
  | repairCommit _ v r h => v == view && r == round && h == hist
  | _ => false

/-- A REPAIR-DONE for `(view, round)`. -/
def isRepairDoneAt (view round : UInt64) : Message → Bool
  | repairDone _ v r _ => v == view && r == round
  | _ => false

theorem isTimeoutAt_iff {round logIdx : UInt64} {msg : Message} :
    msg.isTimeoutAt round logIdx = true ↔ ∃ sender, msg = timeoutMsg sender round logIdx := by
  cases msg <;> simp [isTimeoutAt]

theorem isRepairHistoryAt_iff {view round : UInt64} {msg : Message} :
    msg.isRepairHistoryAt view round = true ↔
      ∃ sender hist, msg = repairHistory sender view round hist := by
  cases msg <;> simp [isRepairHistoryAt]

theorem isRepairPrepareFor_iff {view round hist : UInt64} {msg : Message} :
    msg.isRepairPrepareFor view round hist = true ↔
      ∃ sender, msg = repairPrepare sender view round hist := by
  cases msg <;> simp [isRepairPrepareFor, and_assoc]

theorem isRepairCommitFor_iff {view round hist : UInt64} {msg : Message} :
    msg.isRepairCommitFor view round hist = true ↔
      ∃ sender, msg = repairCommit sender view round hist := by
  cases msg <;> simp [isRepairCommitFor, and_assoc]

end Message

/-- An effect produced by a replica handler. -/
inductive Effect
  | broadcast (message : Message)
  | send (target : NodeId) (message : Message)
  deriving DecidableEq

/-- The message an effect puts on the network. -/
def Effect.message : Effect → Message
  | .broadcast message => message
  | .send _ message => message

/-- External timer events delivered to the replica. -/
inductive Event
  | syncTimeout
  | chkptTimeout (logIdx : UInt64)
  | repairViewTimeout
  deriving DecidableEq

/-- Protocol phase tracked per replica. -/
inductive Phase
  | speculative
  | aligning
  | collectingLogs
  | preparePhase
  | commitPhase
  deriving DecidableEq

/-- Static protocol configuration. -/
structure Config where
  n : Nat
  f : Nat
  p : Nat
  fastQuorum : Nat
  byzQuorum : Nat
  fPlus1 : Nat
  nodesOrdered : List NodeId

namespace Config

/-- The configuration built from raw `(n, f, p)`.  The `usize` differences
underflow only outside `f, p ≤ n`. -/
def forTest (n f p : Nat) : Config where
  n := n
  f := f
  p := p
  fastQuorum := n - p
  byzQuorum := n - f
  fPlus1 := f + 1
  nodesOrdered := (List.range n).map fun i => "r" ++ toString i

/-- The members of a test configuration are distinct. -/
theorem nodup_forTest (n f p : Nat) : (forTest n f p).nodesOrdered.Nodup := by
  apply List.Nodup.map _ List.nodup_range
  intro first second same
  have sameChars := congrArg String.toList same
  rw [String.toList_append, String.toList_append] at sameChars
  -- a decimal numeral is read back from its digits
  have sameNumeral := congrArg (Nat.ofDigitChars 10 · 0) (List.append_cancel_left sameChars)
  simpa [Nat.toString_eq_ofList_toDigits] using sameNumeral

end Config

end Raspen
