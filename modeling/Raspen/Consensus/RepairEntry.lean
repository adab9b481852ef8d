import Raspen.Consensus.Core
import Mathlib.Data.Finset.Card

/-!
# Repair entry sub-protocol

A replica enters REPAIR by proving a conflict, by collecting f+1 TIMEOUTs, or on
receiving a proof from anyone else.
-/

namespace Raspen

open KvStoreOps Raspen.Transition

variable {S : Type}

/-- The index of an expired checkpoint timer, in Speculative phase. -/
def canChkptTimeout (replica : Replica S) (event : Event) : Option UInt64 :=
  if replica.phase ≠ .speculative then none
  else if replica.inRepair then none
  else
    match event with
    | .chkptTimeout logIdx => some logIdx
    | _ => none

/-- Broadcast a TIMEOUT message for the given log index. No state change. -/
def handleChkptTimeout (replica : Replica S) (logIdx : UInt64) : Option (Outcome S) :=
  some (replica, [.broadcast (.timeoutMsg replica.nodeId replica.round logIdx)])

/-- The log top, when f+1 TIMEOUTs for it have been stored. -/
def canTimeoutProof (replica : Replica S) : Option UInt64 :=
  if replica.phase ≠ .speculative then none
  else if replica.inRepair then none
  else if replica.kvSize = 0 then none
  else
    let logIdx := replica.kvSize - 1
    let count := (replica.timeoutMsgs.filter (·.isTimeoutAt replica.round logIdx)).card
    if replica.config.fPlus1 ≤ count then some logIdx else none

/-- Process an incoming TIMEOUT: store it and check whether f+1 were seen. -/
def onReceiveTimeout (msg : Message) : ReplicaStage S where
  store := Replica.storeIf Message.isTimeoutMsg msg
  listen replica := (canTimeoutProof replica).map .timeoutProof

/-- The current round, when a proof arrives outside REPAIR. -/
def canEnterRepair (replica : Replica S) (msg : Message) : Option UInt64 :=
  if replica.inRepair then none
  else
    match msg with
    | .timeoutProof .. | .conflictProof .. => some replica.round
    | _ => none

variable [KvStoreOps S]

/-- The log top, when `byz_quorum` SYNCs for it are stored but fewer than
`fast_quorum` of them match the replica's own hash. -/
def canConflictProof (replica : Replica S) : Option UInt64 :=
  if replica.phase ≠ .speculative then none
  else if replica.kvSize = 0 then none
  else if replica.inRepair then none
  else
    let logIdx := replica.kvSize - 1
    let expectedHash := topHash replica.kvStore
    let total := (replica.syncMsgs.filter (·.isSyncAt replica.round logIdx)).card
    let consist :=
      (replica.syncMsgs.filter (·.isSyncFor replica.round logIdx expectedHash)).card
    if replica.config.byzQuorum ≤ total ∧ consist < replica.config.fastQuorum then
      some logIdx
    else none

/-- The transition shared by the three entries: start collecting logs, and
broadcast the given proof followed by a LOG for the current view. -/
def startRepair (replica : Replica S) (proof : List Effect) : Option (Outcome S) :=
  some ({ replica with phase := .collectingLogs, inRepair := true },
    proof ++ [logMsgEffect replica replica.view])

/-- Broadcast a CONFLICT-PROOF and LOG message, then enter REPAIR. -/
def handleConflictProof (replica : Replica S) (logIdx : UInt64) : Option (Outcome S) :=
  startRepair replica [.broadcast (.conflictProof replica.round logIdx)]

/-- Broadcast a TIMEOUT-PROOF and LOG message, then enter REPAIR. -/
def handleTimeoutProof (replica : Replica S) (logIdx : UInt64) : Option (Outcome S) :=
  startRepair replica [.broadcast (.timeoutProof replica.round logIdx)]

/-- Broadcast a LOG message and enter REPAIR.  The round argument is unused. -/
def handleEnterRepair (replica : Replica S) (_round : UInt64) : Option (Outcome S) :=
  startRepair replica []

/-! ## Guard inversion -/

omit [KvStoreOps S] in
theorem canChkptTimeout_eq_some_iff {replica : Replica S} {timer : Event} {logIdx : UInt64} :
    canChkptTimeout replica timer = some logIdx ↔
      replica.phase = .speculative ∧ replica.inRepair = false ∧
        timer = .chkptTimeout logIdx := by
  unfold canChkptTimeout
  by_cases speculative : replica.phase = .speculative
  · cases inside : replica.inRepair <;> cases timer <;> simp [speculative]
  · simp [speculative]

omit [KvStoreOps S] in
theorem canTimeoutProof_eq_some_iff {replica : Replica S} {logIdx : UInt64} :
    canTimeoutProof replica = some logIdx ↔
      replica.phase = .speculative ∧ replica.inRepair = false ∧ replica.kvSize ≠ 0 ∧
        logIdx = replica.kvSize - 1 ∧ replica.config.fPlus1 ≤
          (replica.timeoutMsgs.filter (·.isTimeoutAt replica.round logIdx)).card := by
  unfold canTimeoutProof
  by_cases speculative : replica.phase = .speculative
  · cases inside : replica.inRepair with
    | true => simp
    | false =>
        by_cases empty : replica.kvSize = 0
        · simp [empty]
        · simp only [speculative, ne_eq, not_true_eq_false, Bool.false_eq_true, if_false, empty,
            Option.ite_none_right_eq_some, Option.some.injEq, not_false_eq_true, true_and]
          constructor
          · rintro ⟨quorum, rfl⟩
            exact ⟨rfl, quorum⟩
          · rintro ⟨rfl, quorum⟩
            exact ⟨quorum, rfl⟩
  · simp [speculative]

/-- A conflict proof names the log top. -/
theorem canConflictProof_eq_some_iff {replica : Replica S} {logIdx : UInt64} :
    canConflictProof replica = some logIdx ↔
      replica.phase = .speculative ∧ replica.inRepair = false ∧ replica.kvSize ≠ 0 ∧
        logIdx = replica.kvSize - 1 ∧
        replica.config.byzQuorum ≤
          (replica.syncMsgs.filter (·.isSyncAt replica.round logIdx)).card ∧
        (replica.syncMsgs.filter (·.isSyncFor replica.round logIdx
          (topHash replica.kvStore))).card < replica.config.fastQuorum := by
  unfold canConflictProof
  by_cases speculative : replica.phase = .speculative
  · cases inside : replica.inRepair with
    | true => simp
    | false =>
        by_cases empty : replica.kvSize = 0
        · simp [empty]
        · simp only [speculative, ne_eq, not_true_eq_false, Bool.false_eq_true, if_false, empty,
            Option.ite_none_right_eq_some, Option.some.injEq, not_false_eq_true, true_and]
          constructor
          · rintro ⟨quorum, rfl⟩
            exact ⟨rfl, quorum⟩
          · rintro ⟨rfl, quorum⟩
            exact ⟨quorum, rfl⟩
  · simp [speculative]

end Raspen
