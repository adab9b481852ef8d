import Raspen.Aspen.Core

/-!
# The transitions of the specification

Sixteen pairs of a listener and a handler, in the order of the main listener.  A listener
returns the parameters its handler may be called with.
-/

namespace Raspen.Aspen

open Choreo (cue)

variable (constants : Constants)

/-! ## Fast path -/

def listenSpeculate (ctx : LocalContext) : Finset Int :=
  if ctx.state.phase = .speculative then {ctx.state.kvSize} else ∅

/-- Insert the next entry into the log and broadcast SPEC-REPLY. -/
def handleSpeculate (ctx : LocalContext) (logIdx : Int) : Transition :=
  let st := ctx.state
  let prevH := if 0 < logIdx then logHashAt st.kvStore (logIdx - 1) else 0
  let newEntry : KVEntry := { opHash := logIdx, result := logIdx, prevHash := prevH }
  let newStore := st.kvStore.insert logIdx newEntry
  let newHash := logHashAt newStore logIdx
  { effects := [.broadcast (.specReply st.processId st.round logIdx newHash)]
    postState := { st with kvSize := st.kvSize + 1, kvStore := newStore } }

/-! ## Checkpoint sub-protocol -/

def listenSendSync (ctx : LocalContext) : Finset Int :=
  let st := ctx.state
  let hasSyncTimeout : Bool := .syncTimeout ∈ ctx.events
  if st.phase = .speculative ∧ 0 < st.kvSize ∧ (hasSyncTimeout ∨ st.chkptIdx < st.kvSize) then
    {st.kvSize - 1}
  else ∅

/-- Broadcast SYNC for the log top. -/
def handleSendSync (ctx : LocalContext) (logIdx : Int) : Transition :=
  let st := ctx.state
  { effects := [.broadcast (.sync st.processId st.round logIdx
      (logTopHash st.kvStore st.kvSize) st.etaStar)]
    postState := st }

def listenFormCheckpoint (ctx : LocalContext) : Finset Int :=
  let st := ctx.state
  if st.phase = .speculative ∧ 0 < st.kvSize then
    let logIdx := st.kvSize - 1
    let quorum :=
      consistentSyncs ctx.messages st.round logIdx (logTopHash st.kvStore st.kvSize)
    if constants.fastQuorum ≤ quorum.card then {logIdx} else ∅
  else ∅

/-- Record the checkpoint and broadcast CHECKPOINT. -/
def handleFormCheckpoint (ctx : LocalContext) (logIdx : Int) : Transition :=
  let st := ctx.state
  { effects := [.broadcast (.checkpoint st.processId st.round logIdx
      (logTopHash st.kvStore st.kvSize))]
    postState :=
      { st with chkptIdx := logIdx, chkptHash := logTopHash st.kvStore st.kvSize } }

/-- ALIGN is triggered whenever f+1 CHECKPOINTs are seen for the own checkpoint index. -/
def listenEnterAlign (ctx : LocalContext) : Finset Int :=
  let st := ctx.state
  if st.phase = .speculative then
    let chkpts := checkpointSenders ctx.messages st.round st.chkptIdx
    if constants.fPlus1 ≤ chkpts.card then {st.chkptIdx} else ∅
  else ∅

def handleEnterAlign (ctx : LocalContext) (chkptIdx : Int) : Transition :=
  let st := ctx.state
  { effects := [.broadcast (.stateRequest st.processId chkptIdx)]
    postState := { st with phase := .aligning } }

/-! ## Repair entry -/

def listenConflictProof (ctx : LocalContext) : Finset Int :=
  let st := ctx.state
  if st.phase = .speculative ∧ 0 < st.kvSize ∧ st.inRepair = false then
    let logIdx := st.kvSize - 1
    let total := (allSyncSenders ctx.messages st.round logIdx).card
    let consist :=
      (consistentSyncs ctx.messages st.round logIdx (logTopHash st.kvStore st.kvSize)).card
    if constants.conflictProofPossible total consist then {logIdx} else ∅
  else ∅

/-- Enter REPAIR in the current view, on the given proof: broadcast it and a LOG. -/
def startRepair (ctx : LocalContext) (proof : List Effect) : Transition :=
  let st := ctx.state
  { effects := proof ++ [.broadcast (.logMsg st.processId st.view st.round
      (logTopHash st.kvStore st.kvSize))]
    postState := { st with phase := .collectingLogs, inRepair := true } }

def handleConflictProof (ctx : LocalContext) (logIdx : Int) : Transition :=
  startRepair ctx [.broadcast (.conflictProof ctx.state.round logIdx)]

def listenChkptTimeout (ctx : LocalContext) : Finset Int :=
  let st := ctx.state
  if st.phase = .speculative ∧ st.inRepair = false then
    Choreo.filterMap ctx.events fun ev =>
      match ev with
      | .chkptTimeout logIdx => some logIdx
      | _ => none
  else ∅

def handleChkptTimeout (ctx : LocalContext) (logIdx : Int) : Transition :=
  let st := ctx.state
  { effects := [.broadcast (.timeoutMsg st.processId st.round logIdx)]
    postState := st }

def listenTimeoutProof (ctx : LocalContext) : Finset Int :=
  let st := ctx.state
  if st.phase = .speculative ∧ st.inRepair = false ∧ 0 < st.kvSize then
    let logIdx := st.kvSize - 1
    let timeouts := timeoutSenders ctx.messages st.round logIdx
    if constants.fPlus1 ≤ timeouts.card then {logIdx} else ∅
  else ∅

def handleTimeoutProof (ctx : LocalContext) (logIdx : Int) : Transition :=
  startRepair ctx [.broadcast (.timeoutProof ctx.state.round logIdx)]

/-- The two messages that let a replica into REPAIR. -/
def Message.isProof : Message → Bool
  | .timeoutProof .. | .conflictProof .. => true
  | _ => false

def listenEnterRepair (ctx : LocalContext) : Finset Int :=
  let st := ctx.state
  if st.inRepair = false then
    if ∃ msg ∈ ctx.messages, msg.isProof = true then {st.round} else ∅
  else ∅

def handleEnterRepair (ctx : LocalContext) (_round : Int) : Transition :=
  startRepair ctx []

/-! ## Alignment sub-protocol -/

def listenStateRequest (ctx : LocalContext) : Finset NodeId :=
  Choreo.filterMap ctx.messages fun msg =>
    match msg with
    | .stateRequest sender _ => some sender
    | _ => none

/-- Answer with the current checkpoint. -/
def handleStateRequest (ctx : LocalContext) (requester : NodeId) : Transition :=
  let st := ctx.state
  { effects := [.send requester (.stateReply st.processId st.chkptIdx st.chkptHash)]
    postState := st }

def listenStateReply (ctx : LocalContext) : Finset Int :=
  if ctx.state.phase = .aligning then
    Choreo.filterMap ctx.messages fun msg =>
      match msg with
      | .stateReply _ chkptIdx _ => some chkptIdx
      | _ => none
  else ∅

/-- Reset to the checkpoint and resume in Speculative phase. -/
def handleStateReply (ctx : LocalContext) (chkptIdx : Int) : Transition :=
  let recoveryStore := rebuiltStore (chkptIdx + 1)
  { effects := []
    postState :=
      { ctx.state with
        phase := .speculative
        chkptIdx := chkptIdx
        chkptHash := if 0 ≤ chkptIdx then logHashAt recoveryStore chkptIdx else 0
        kvSize := chkptIdx + 1
        kvStore := recoveryStore
        startIdx := chkptIdx } }

/-! ## Repair sub-protocol -/

/-- The leader holds LOGs of `byz_quorum` senders; the history is their number. -/
def listenBroadcastHistory (ctx : LocalContext) : Finset Int :=
  let st := ctx.state
  if st.phase = .collectingLogs ∧ constants.isLeader st.processId st.view = true then
    let logSenders := logMsgSenders ctx.messages st.view st.round
    if constants.byzQuorum ≤ logSenders.card then {(logSenders.card : Int)} else ∅
  else ∅

def handleBroadcastHistory (ctx : LocalContext) (historyHash : Int) : Transition :=
  let st := ctx.state
  { effects := [.broadcast (.repairHistory st.processId st.view st.round historyHash)]
    postState := { st with phase := .preparePhase, proposedHistoryHash := historyHash } }

def listenRepairPrepare (ctx : LocalContext) : Finset Int :=
  let st := ctx.state
  if (st.phase = .collectingLogs ∨ st.phase = .preparePhase) ∧
      hasRepairHistory ctx.messages st.view st.round = true then
    {getHistoryHash ctx.messages st.view st.round}
  else ∅

def handleRepairPrepare (ctx : LocalContext) (historyHash : Int) : Transition :=
  let st := ctx.state
  { effects := [.broadcast (.repairPrepare st.processId st.view st.round historyHash)]
    postState := { st with phase := .preparePhase, proposedHistoryHash := historyHash } }

def listenRepairCommit (ctx : LocalContext) : Finset Int :=
  let st := ctx.state
  if st.phase = .preparePhase then
    let prepares := repairPrepareSenders ctx.messages st.view st.round st.proposedHistoryHash
    if constants.byzQuorum ≤ prepares.card then {st.proposedHistoryHash} else ∅
  else ∅

def handleRepairCommit (ctx : LocalContext) (historyHash : Int) : Transition :=
  let st := ctx.state
  { effects := [.broadcast (.repairCommit st.processId st.view st.round historyHash)]
    postState := { st with phase := .commitPhase } }

def listenApplyRepair (ctx : LocalContext) : Finset Int :=
  let st := ctx.state
  if st.phase = .commitPhase then
    let commits := repairCommitSenders ctx.messages st.view st.round st.proposedHistoryHash
    if constants.byzQuorum ≤ commits.card then {st.proposedHistoryHash} else ∅
  else ∅

/-- Install the merged log and advance to the next round. -/
def handleApplyRepair (ctx : LocalContext) (historyHash : Int) : Transition :=
  let st := ctx.state
  { effects :=
      [.broadcast (.repairDone st.processId st.view st.round historyHash),
        .broadcast (.committedReply st.processId st.round st.kvSize)]
    postState :=
      { st with
        phase := .speculative
        round := st.round + 1
        startIdx := historyHash
        kvSize := historyHash
        kvStore := rebuiltStore historyHash
        inRepair := false
        proposedHistoryHash := 0 } }

def listenRepairDoneCatchup (ctx : LocalContext) : Finset Int :=
  let st := ctx.state
  if st.phase = .collectingLogs ∨ st.phase = .preparePhase ∨ st.phase = .commitPhase then
    let dones := repairDoneSenders ctx.messages st.view st.round
    if constants.fPlus1 ≤ dones.card ∧
        hasRepairHistory ctx.messages st.view st.round = true then
      {st.round}
    else ∅
  else ∅

/-- Leave REPAIR without touching the log. -/
def handleRepairDoneCatchup (ctx : LocalContext) (_round : Int) : Transition :=
  let st := ctx.state
  { effects := []
    postState :=
      { st with
        phase := .speculative
        round := st.round + 1
        startIdx := st.kvSize
        inRepair := false
        proposedHistoryHash := 0 } }

def listenViewChange (ctx : LocalContext) : Finset Int :=
  let st := ctx.state
  let hasTimeout : Bool := .repairViewTimeout ∈ ctx.events
  if st.phase = .collectingLogs ∧ hasTimeout then {st.view + 1} else ∅

def handleViewChange (ctx : LocalContext) (newView : Int) : Transition :=
  let st := ctx.state
  { effects := [.broadcast (.logMsg st.processId newView st.round
      (logTopHash st.kvStore st.kvSize))]
    postState := { st with view := newView } }

/-! ## The choreography -/

/-- The transitions of a replica. -/
def mainListener (ctx : LocalContext) : Finset Transition :=
  -- fast path
  cue ctx listenSpeculate handleSpeculate ∪
  cue ctx listenSendSync handleSendSync ∪
  cue ctx (listenFormCheckpoint constants) handleFormCheckpoint ∪
  -- checkpoint outcomes
  cue ctx (listenEnterAlign constants) handleEnterAlign ∪
  cue ctx (listenConflictProof constants) handleConflictProof ∪
  -- timeouts
  cue ctx listenChkptTimeout handleChkptTimeout ∪
  cue ctx (listenTimeoutProof constants) handleTimeoutProof ∪
  cue ctx listenEnterRepair handleEnterRepair ∪
  -- alignment
  cue ctx listenStateRequest handleStateRequest ∪
  cue ctx listenStateReply handleStateReply ∪
  -- repair
  cue ctx (listenBroadcastHistory constants) handleBroadcastHistory ∪
  cue ctx listenRepairPrepare handleRepairPrepare ∪
  cue ctx (listenRepairCommit constants) handleRepairCommit ∪
  cue ctx (listenApplyRepair constants) handleApplyRepair ∪
  cue ctx (listenRepairDoneCatchup constants) handleRepairDoneCatchup ∪
  cue ctx listenViewChange handleViewChange

/-- The specification has no effects of its own. -/
def applyCustomEffect (ctx : GlobalContext) (_effect : Unit) : GlobalContext :=
  ctx

/-- The local state of a fresh replica. -/
def initialState (node : NodeId) : LocalState where
  processId := node
  phase := .speculative
  round := 0
  view := 0
  startIdx := 0
  kvSize := 0
  kvStore := ∅
  chkptIdx := 0
  chkptHash := 0
  etaStar := 0
  inRepair := false
  proposedHistoryHash := 0

/-- Each faulty node has sent two different LOGs for view 0 of round 0. -/
def byzantineLogMsgs : Finset Message :=
  constants.faultyNodes.biUnion fun node => {.logMsg node 0 0 0, .logMsg node 0 0 999}

/-- And two different REPAIR-PREPAREs. -/
def byzantinePrepareMsgs : Finset Message :=
  constants.faultyNodes.biUnion fun node =>
    {.repairPrepare node 0 0 0, .repairPrepare node 0 0 888}

def allByzantineMessages : Finset Message :=
  byzantineLogMsgs constants ∪ byzantinePrepareMsgs constants

/-- The initial environment, with events pending at the nodes. -/
def initWith (events : NodeId → Finset Event) : GlobalContext where
  system := initialState
  messages := fun _ => allByzantineMessages constants
  events := events
  extensions := ()

/-- The initial environment of the file: no event is pending, and none ever will be. -/
def init : GlobalContext :=
  initWith constants fun _ => ∅

def step : Raspen.Transition.Next GlobalContext (NodeId × Transition) :=
  Choreo.step constants.nodes (mainListener constants) applyCustomEffect

end Raspen.Aspen
