import Raspen.Consensus.Core
import Mathlib.Data.Finset.Card

/-!
# Alignment sub-protocol

State transfer is abstract in the source: a recovered log consists of synthetic
entries, one for each index.
-/

namespace Raspen

open KvStoreOps Raspen.Transition

variable {S : Type}

/-- The checkpoint index, when f+1 CHECKPOINTs for it have been stored. -/
def canEnterAlign (replica : Replica S) : Option UInt64 :=
  if replica.phase ≠ .speculative then none
  else
    let senderCount :=
      (replica.chkptMsgs.filter (·.isCheckpointAt replica.round replica.chkptIdx)).card
    if replica.config.fPlus1 ≤ senderCount then some replica.chkptIdx else none

/-- Switch to Aligning phase and broadcast a STATE-REQUEST. -/
def handleEnterAlign (replica : Replica S) (chkptIdx : UInt64) : Option (Outcome S) :=
  some ({ replica with phase := .aligning },
    [.broadcast (.stateRequest replica.nodeId chkptIdx)])

/-- Process an incoming CHECKPOINT: store it and check whether f+1 were seen. -/
def onReceiveCheckpoint (msg : Message) : ReplicaStage S where
  store := Replica.storeIf Message.isCheckpoint msg
  listen replica := (canEnterAlign replica).map .enterAlign

/-- The requester of every STATE-REQUEST message. -/
def canStateRequest : Message → Option NodeId
  | .stateRequest sender _ => some sender
  | _ => none

/-- Send a STATE-REPLY with the current checkpoint. No state change. -/
def handleStateRequest (replica : Replica S) (requester : NodeId) : Option (Outcome S) :=
  some (replica,
    [.send requester (.stateReply replica.nodeId replica.chkptIdx replica.chkptHash)])

/-- The checkpoint index of a STATE-REPLY that arrives while aligning. -/
def canStateReply (replica : Replica S) (msg : Message) : Option UInt64 :=
  if replica.phase ≠ .aligning then none
  else
    match msg with
    | .stateReply _ chkptIdx _ => some chkptIdx
    | _ => none

/-- The synthetic entry that a rebuilt log holds at index `k`. -/
def syntheticEntry (k : UInt64) : KvEntry where
  opHash := k
  result := []
  prevHash := Hash.fill k.toUInt8

/-- Synthetic entries for the first `count` indices. -/
def syntheticEntries (count : Nat) : List (UInt64 × KvEntry) :=
  (List.range count).map fun k => (UInt64.ofNat k, syntheticEntry (UInt64.ofNat k))

variable [KvStoreOps S]

/-- Rebuild the log from the recovered checkpoint and return to Speculative. -/
def handleStateReply (replica : Replica S) (chkptIdx : UInt64) : Option (Outcome S) := do
  let kvStore ←
    (rebuildFromEntries replica.kvStore (syntheticEntries (chkptIdx.toNat + 1))).toOption
  let kvSize ← addU64 chkptIdx 1
  pure ({ replica with
    kvStore := kvStore
    phase := .speculative
    chkptIdx := chkptIdx
    chkptHash := (hashAt kvStore chkptIdx).toOption.getD Hash.zero
    kvSize := kvSize
    startIdx := chkptIdx }, [])

/-- What state transfer writes. -/
theorem handleStateReply_eq_some {replica next : Replica S} {chkptIdx : UInt64}
    {effects : List Effect} (handled : handleStateReply replica chkptIdx = some (next, effects)) :
    ∃ kvStore kvSize,
      rebuildFromEntries replica.kvStore (syntheticEntries (chkptIdx.toNat + 1)) = .ok kvStore ∧
      addU64 chkptIdx 1 = some kvSize ∧
      next = { replica with
        kvStore := kvStore
        phase := .speculative
        chkptIdx := chkptIdx
        chkptHash := (hashAt kvStore chkptIdx).toOption.getD Hash.zero
        kvSize := kvSize
        startIdx := chkptIdx } ∧
      effects = [] := by
  simp only [handleStateReply, Option.bind_eq_bind, Option.bind_eq_some_iff, Option.pure_def,
    Option.some.injEq, Prod.mk.injEq] at handled
  rcases handled with ⟨kvStore, rebuilt, kvSize, grown, rfl, rfl⟩
  exact ⟨kvStore, kvSize, ok_of_toOption_eq_some rebuilt, grown, rfl, rfl⟩

end Raspen
