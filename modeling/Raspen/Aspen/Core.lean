import Raspen.Choreo.Core
import Raspen.Types.Message
import Mathlib.Data.Finset.Fold

/-!
# The specification

`specs/aspen.qnt` states the protocol as a choreography over unbounded integers: its
types, its constants and the functions that its listeners read the mailbox with.  The
constants are a parameter; `sixNodes` holds the values of the file.
-/

namespace Raspen.Aspen

/-- A log entry; its hash is abstracted to the sum of `opHash` and `prevHash`. -/
structure KVEntry where
  opHash : Int
  result : Int
  prevHash : Int
  deriving DecidableEq

/-- The log: a map from indices to entries. -/
abbrev KVStore := Std.ExtTreeMap Int KVEntry

/-- Sentinel empty entry. -/
def emptyKVEntry : KVEntry where
  opHash := 0
  result := 0
  prevHash := 0

/-- All messages of the specification; `sender` is its field `from`. -/
inductive Message
  | specReply (sender : NodeId) (round logIdx logHash : Int)
  | sync (sender : NodeId) (round logIdx logHash etaStar : Int)
  | checkpoint (sender : NodeId) (round logIdx logHash : Int)
  | stateRequest (sender : NodeId) (chkptIdx : Int)
  | stateReply (sender : NodeId) (chkptIdx chkptHash : Int)
  | timeoutMsg (sender : NodeId) (round logIdx : Int)
  | timeoutProof (round logIdx : Int)
  | conflictProof (round logIdx : Int)
  | logMsg (sender : NodeId) (view round logHash : Int)
  | repairHistory (sender : NodeId) (view round historyHash : Int)
  | repairPrepare (sender : NodeId) (view round historyHash : Int)
  | repairCommit (sender : NodeId) (view round historyHash : Int)
  | repairDone (sender : NodeId) (view round historyHash : Int)
  | committedReply (sender : NodeId) (round logIdx : Int)
  deriving DecidableEq

/-- The `from` field; the two proofs are anonymous. -/
def Message.sender : Message → Option NodeId
  | timeoutProof .. | conflictProof .. => none
  | specReply sender .. | sync sender .. | checkpoint sender .. | stateRequest sender ..
  | stateReply sender .. | timeoutMsg sender .. | logMsg sender .. | repairHistory sender ..
  | repairPrepare sender .. | repairCommit sender .. | repairDone sender ..
  | committedReply sender .. => some sender

/-- The local state of a replica. -/
structure LocalState where
  processId : NodeId
  phase : Phase
  round : Int
  view : Int
  startIdx : Int
  kvSize : Int
  kvStore : KVStore
  chkptIdx : Int
  chkptHash : Int
  etaStar : Int
  inRepair : Bool
  proposedHistoryHash : Int
  deriving DecidableEq

/-- The timeouts that trigger a sub-protocol. -/
inductive Event
  | syncTimeout
  | chkptTimeout (logIdx : Int)
  | repairViewTimeout
  deriving DecidableEq

abbrev Effect := Choreo.Effect NodeId Message Event Unit
abbrev LocalContext := Choreo.LocalContext LocalState Message Event Unit
abbrev Transition := Choreo.Transition NodeId LocalState Message Event Unit
abbrev GlobalContext := Choreo.GlobalContext NodeId LocalState Message Event Unit

/-! ## Constants -/

/-- The constants of a configuration.  `nodesOrdered` lists the nodes for round-robin
leader election. -/
structure Constants where
  maxByz : Int
  maxDiv : Int
  nodesOrdered : List NodeId
  faultyNodes : Finset NodeId

namespace Constants

variable (constants : Constants)

def nodes : Finset NodeId :=
  constants.nodesOrdered.toFinset

def correctNodes : Finset NodeId :=
  constants.nodes.filter fun node => node ∉ constants.faultyNodes

def nReplicas : Int :=
  constants.nodes.card

/-- `n - p`. -/
def fastQuorum : Int :=
  constants.nReplicas - constants.maxDiv

/-- `n - f`. -/
def byzQuorum : Int :=
  constants.nReplicas - constants.maxByz

/-- `f + 1`. -/
def fPlus1 : Int :=
  constants.maxByz + 1

/-- The leader of `view` is `NODES_ORDERED[view mod n_replicas]`. -/
def isLeader (node : NodeId) (view : Int) : Bool :=
  constants.nodesOrdered[(view % constants.nReplicas).toNat]? == some node

end Constants

/-- The configuration of the file: six nodes, one Byzantine and one diverged. -/
def sixNodes : Constants where
  maxByz := 1
  maxDiv := 1
  nodesOrdered := ["r0", "r1", "r2", "r3", "r4", "r5"]
  faultyNodes := {"r5"}

theorem Constants.leader_unique {constants : Constants} {node other : NodeId} {view : Int}
    (leads : constants.isLeader node view = true)
    (otherLeads : constants.isLeader other view = true) : node = other := by
  simp only [isLeader, beq_iff_eq] at leads otherLeads
  exact Option.some.inj (leads.symm.trans otherLeads)

/-! ## The log -/

/-- Hash of the entry at index `k`. -/
def logHashAt (store : KVStore) (k : Int) : Int :=
  (store[k]?.getD emptyKVEntry).opHash + (store[k]?.getD emptyKVEntry).prevHash

/-- Hash of the latest entry. -/
def logTopHash (store : KVStore) (kvSize : Int) : Int :=
  if 0 < kvSize then logHashAt store (kvSize - 1) else 0

/-- `0.to(size - 1).mapBy(k => { op_hash: k, result: k, prev_hash: k })`. -/
def rebuiltStore (size : Int) : KVStore :=
  .ofList ((List.range size.toNat).map fun k : Nat =>
    ((k : Int), ({ opHash := k, result := k, prevHash := k } : KVEntry)))

/-! ## Reading the mailbox -/

/-- The senders whose SYNC for `(round, logIdx)` carries `logHash`. -/
def consistentSyncs (messages : Finset Message) (round logIdx logHash : Int) : Finset NodeId :=
  Choreo.filterMap messages fun msg =>
    match msg with
    | .sync sender r li lh _ =>
        if r = round ∧ li = logIdx ∧ lh = logHash then some sender else none
    | _ => none

def allSyncSenders (messages : Finset Message) (round logIdx : Int) : Finset NodeId :=
  Choreo.filterMap messages fun msg =>
    match msg with
    | .sync sender r li _ _ => if r = round ∧ li = logIdx then some sender else none
    | _ => none

def checkpointSenders (messages : Finset Message) (round logIdx : Int) : Finset NodeId :=
  Choreo.filterMap messages fun msg =>
    match msg with
    | .checkpoint sender r li _ => if r = round ∧ li = logIdx then some sender else none
    | _ => none

def timeoutSenders (messages : Finset Message) (round logIdx : Int) : Finset NodeId :=
  Choreo.filterMap messages fun msg =>
    match msg with
    | .timeoutMsg sender r li => if r = round ∧ li = logIdx then some sender else none
    | _ => none

def logMsgSenders (messages : Finset Message) (view round : Int) : Finset NodeId :=
  Choreo.filterMap messages fun msg =>
    match msg with
    | .logMsg sender v r _ => if v = view ∧ r = round then some sender else none
    | _ => none

def repairPrepareSenders (messages : Finset Message) (view round historyHash : Int) :
    Finset NodeId :=
  Choreo.filterMap messages fun msg =>
    match msg with
    | .repairPrepare sender v r h =>
        if v = view ∧ r = round ∧ h = historyHash then some sender else none
    | _ => none

def repairCommitSenders (messages : Finset Message) (view round historyHash : Int) :
    Finset NodeId :=
  Choreo.filterMap messages fun msg =>
    match msg with
    | .repairCommit sender v r h =>
        if v = view ∧ r = round ∧ h = historyHash then some sender else none
    | _ => none

def repairDoneSenders (messages : Finset Message) (view round : Int) : Finset NodeId :=
  Choreo.filterMap messages fun msg =>
    match msg with
    | .repairDone sender v r _ => if v = view ∧ r = round then some sender else none
    | _ => none

/-- The message is a REPAIR-HISTORY for `(view, round)`. -/
def Message.isHistoryAt (view round : Int) : Message → Bool
  | .repairHistory _ v r _ => v = view ∧ r = round
  | _ => false

/-- A REPAIR-HISTORY for `(view, round)` exists. -/
def hasRepairHistory (messages : Finset Message) (view round : Int) : Bool :=
  decide (∃ msg ∈ messages, msg.isHistoryAt view round = true)

/-- The `history_hash` of a REPAIR-HISTORY for `(view, round)`. -/
def Message.historyHashAt (view round : Int) : Message → Option Int
  | .repairHistory _ v r h => if v = view ∧ r = round then some h else none
  | _ => none

/-- The largest `history_hash` for `(view, round)`, or 0. -/
def getHistoryHash (messages : Finset Message) (view round : Int) : Int :=
  (Choreo.filterMap messages (Message.historyHashAt view round)).fold max 0 id

/-- `n - m < (n - p) - c`, for `m` SYNCs received, `c` of them consistent. -/
def Constants.conflictProofPossible (constants : Constants) (totalSyncs consistentCount : Int) :
    Bool :=
  constants.nReplicas - totalSyncs < constants.fastQuorum - consistentCount

/-- Two LOGs of `node` for one view and round with different hashes. -/
def isLogEquivocation (node : NodeId) : Message → Message → Bool
  | .logMsg a v r h, .logMsg b v' r' h' => a = node ∧ b = node ∧ v = v' ∧ r = r' ∧ h ≠ h'
  | _, _ => false

/-- Two REPAIR-PREPAREs of `node` for one view and round with different histories. -/
def isPrepareEquivocation (node : NodeId) : Message → Message → Bool
  | .repairPrepare a v r h, .repairPrepare b v' r' h' =>
      a = node ∧ b = node ∧ v = v' ∧ r = r' ∧ h ≠ h'
  | _, _ => false

def logEquivocationIn (node : NodeId) (messages : Finset Message) : Bool :=
  decide (∃ first ∈ messages, ∃ second ∈ messages, isLogEquivocation node first second = true)

def prepareEquivocationIn (node : NodeId) (messages : Finset Message) : Bool :=
  decide (∃ first ∈ messages, ∃ second ∈ messages,
    isPrepareEquivocation node first second = true)

/-! ## What the readings say -/

theorem hasRepairHistory_iff {messages : Finset Message} {view round : Int} :
    hasRepairHistory messages view round = true ↔
      ∃ sender historyHash, .repairHistory sender view round historyHash ∈ messages := by
  rw [hasRepairHistory, decide_eq_true_eq]
  constructor
  · rintro ⟨msg, msgMem, isHistory⟩
    cases msg with
    | repairHistory sender v r h =>
        simp only [Message.isHistoryAt, decide_eq_true_eq] at isHistory
        rcases isHistory with ⟨rfl, rfl⟩
        exact ⟨sender, h, msgMem⟩
    | _ => simp [Message.isHistoryAt] at isHistory
  · rintro ⟨sender, historyHash, msgMem⟩
    exact ⟨_, msgMem, by simp [Message.isHistoryAt]⟩

theorem historyHashAt_eq_some_iff {view round historyHash : Int} {msg : Message} :
    msg.historyHashAt view round = some historyHash ↔
      ∃ sender, msg = .repairHistory sender view round historyHash := by
  cases msg with
  | repairHistory sender v r h =>
      simp only [Message.historyHashAt, Option.ite_none_right_eq_some, Option.some.injEq,
        Message.repairHistory.injEq]
      constructor
      · rintro ⟨⟨rfl, rfl⟩, rfl⟩
        exact ⟨sender, rfl, rfl, rfl, rfl⟩
      · rintro ⟨_, _, rfl, rfl, rfl⟩
        exact ⟨⟨rfl, rfl⟩, rfl⟩
  | _ => simp [Message.historyHashAt]

/-- The chosen history is one of those in the mailbox when none of them is negative. -/
theorem exists_history_of_getHistoryHash {messages : Finset Message} {view round : Int}
    (proposed : hasRepairHistory messages view round = true)
    (nonneg : ∀ sender historyHash, .repairHistory sender view round historyHash ∈ messages →
      0 ≤ historyHash) :
    ∃ sender, .repairHistory sender view round (getHistoryHash messages view round) ∈
      messages := by
  set hashes := Choreo.filterMap messages (Message.historyHashAt view round) with hashes_eq
  have mem_hashes : ∀ historyHash, historyHash ∈ hashes →
      ∃ sender, .repairHistory sender view round historyHash ∈ messages := by
    intro historyHash hashMem
    rcases Choreo.mem_filterMap_iff.mp hashMem with ⟨msg, msgMem, selects⟩
    rcases historyHashAt_eq_some_iff.mp selects with ⟨sender, rfl⟩
    exact ⟨sender, msgMem⟩
  obtain ⟨above, bounds⟩ := Finset.fold_max_le (s := hashes) (b := 0) (f := id) _ |>.mp le_rfl
  -- the fold is one of the hashes, or it is 0 and no hash is below it
  rcases Finset.le_fold_max (s := hashes) (b := 0) (f := id) _ |>.mp le_rfl with
    small | ⟨largest, largestMem, reaches⟩
  · rcases hasRepairHistory_iff.mp proposed with ⟨sender, historyHash, msgMem⟩
    have hashMem : historyHash ∈ hashes :=
      Choreo.mem_filterMap_iff.mpr ⟨_, msgMem, by simp [Message.historyHashAt]⟩
    have zero : historyHash = getHistoryHash messages view round :=
      le_antisymm (bounds historyHash hashMem) (small.trans (nonneg sender historyHash msgMem))
    rw [← zero]
    exact ⟨sender, msgMem⟩
  · have equal : largest = getHistoryHash messages view round :=
      le_antisymm (bounds largest largestMem) reaches
    rw [← equal]
    exact mem_hashes largest largestMem

end Raspen.Aspen
