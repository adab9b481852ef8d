import Raspen.Consensus.Wakeup
import Raspen.Consensus.Storing

/-!
# Redelivered messages

The message sets absorb a second copy of a message, but every call evaluates
every guard again.  A copy is absorbed by the whole call exactly when no guard is
still open, and some guards stay open after they have fired.
-/

namespace Raspen

open Raspen.Transition

variable {S : Type}

/-- `msg` is in the message set of its category. -/
def Replica.Remembers (replica : Replica S) (msg : Message) : Prop :=
  match msg with
  | .sync .. => msg ∈ replica.syncMsgs
  | .checkpoint .. => msg ∈ replica.chkptMsgs
  | .timeoutMsg .. => msg ∈ replica.timeoutMsgs
  | .logMsg .. => msg ∈ replica.logMsgs
  | .repairHistory .. => msg ∈ replica.repairHistoryMsgs
  | .repairPrepare .. => msg ∈ replica.repairPrepareMsgs
  | .repairCommit .. => msg ∈ replica.repairCommitMsgs
  | .repairDone .. => msg ∈ replica.repairDoneMsgs
  | _ => False

instance (replica : Replica S) (msg : Message) : Decidable (replica.Remembers msg) :=
  match msg with
  | .sync .. | .checkpoint .. | .timeoutMsg .. | .logMsg .. | .repairHistory ..
  | .repairPrepare .. | .repairCommit .. | .repairDone .. =>
      inferInstanceAs (Decidable (_ ∈ (_ : Finset Message)))
  | .speculate .. | .specReply .. | .stateRequest .. | .stateReply .. | .timeoutProof ..
  | .conflictProof .. | .committedReply .. => inferInstanceAs (Decidable False)

theorem Replica.Remembers.store_eq {replica : Replica S} {msg : Message}
    (remembers : replica.Remembers msg) : replica.store msg = replica := by
  cases msg <;> first
    | exact remembers.elim
    | simp only [Replica.Remembers] at remembers
      simp [Replica.store, Finset.insert_eq_of_mem remembers]

/-- No guard that a stored message can reopen is open. -/
structure Dormant [KvStoreOps S] (order : HashOrder) (replica : Replica S) : Prop where
  sendSync : canSendSyncThreshold replica = none
  formCheckpoint : canFormCheckpoint replica = none
  enterAlign : canEnterAlign replica = none
  conflictProof : canConflictProof replica = none
  timeoutProof : canTimeoutProof replica = none
  broadcastHistory : canBroadcastHistory replica = none
  repairPrepare : canRepairPrepare order replica = none
  repairDoneCatchup : canRepairDoneCatchup replica = none

variable [KvStoreOps S]

/-! ## One redelivery -/

/-- All handlers but two send something. -/
theorem effects_ne_nil_of_perform {replica next : Replica S} {cue : Cue} {effects : List Effect}
    (performs : perform replica cue = some (next, effects))
    (noTransfer : ∀ chkptIdx, cue ≠ .stateReply chkptIdx)
    (noCatchup : ∀ round, cue ≠ .repairDoneCatchup round) : effects ≠ [] := by
  cases cue with
  | speculate logIdx =>
      rcases handleSpeculate_eq_some performs with ⟨_, _, _, _, _, _, _, rfl⟩
      exact List.cons_ne_nil _ _
  | stateReply chkptIdx => exact absurd rfl (noTransfer chkptIdx)
  | applyRepair historyHash =>
      rcases handleApplyRepair_eq_some performs with ⟨_, _, _, _, _, rfl⟩
      exact List.cons_ne_nil _ _
  | repairDoneCatchup round => exact absurd rfl (noCatchup round)
  | viewChange newView =>
      rcases perform_viewChange_eq_some performs with ⟨_, _, _, rfl⟩
      exact List.cons_ne_nil _ _
  | _ =>
      cases performs
      simp

section Redelivery

variable {order : HashOrder} {replica : Replica S} {msg : Message}

/-- A remembered message is stored to no effect. -/
theorem Replica.Remembers.stores (remembers : replica.Remembers msg) :
    ∀ stage ∈ (Input.message order msg).stages (S := S), stage.store replica = replica := by
  intro stage stageMem
  rcases store_of_mem_stages stageMem replica with same | ⟨_, _, isInput, stored⟩
  · exact same
  · cases isInput
    rw [stored, remembers.store_eq]

/-- The blocks that a remembered message runs through are silent when the guards of
`Dormant` and the two quorums of votes are. -/
theorem Replica.Remembers.silent_iff (remembers : replica.Remembers msg)
    (noCommit : canRepairCommit replica = none) (noApply : canApplyRepair replica = none) :
    (∀ stage ∈ (Input.message order msg).stages (S := S), stage.listen replica = none) ↔
      Dormant order replica := by
  have noSpeculate : canSpeculate replica msg = none := by
    cases msg <;> first | rfl | exact remembers.elim
  have noEntry : canEnterRepair replica msg = none := by
    cases msg <;> first | exact remembers.elim | simp [canEnterRepair]
  have noRequest : canStateRequest msg = none := by
    cases msg <;> first | rfl | exact remembers.elim
  have noReply : canStateReply replica msg = none := by
    cases msg <;> first | exact remembers.elim | simp [canStateReply]
  simp only [Input.stages, normalStages, voteStages, exitStages, List.cons_append,
    List.nil_append, List.forall_mem_cons, List.not_mem_nil, false_implies, implies_true,
    and_true, Stage.guard, onReceiveSync, onReceiveCheckpoint, onReceiveTimeout, onReceiveLogMsg,
    onReceiveRepairHistory, onReceiveRepairPrepare, onReceiveRepairCommit, onReceiveRepairDone,
    Option.map_eq_none_iff, noSpeculate, noEntry, noRequest, noReply, noCommit, noApply, true_and]
  constructor
  · rintro ⟨sync, checkpoint, align, conflict, timeout, history, prepare, catchup⟩
    exact ⟨sync, checkpoint, align, conflict, timeout, history, prepare, catchup⟩
  · rintro ⟨sync, checkpoint, align, conflict, timeout, history, prepare, catchup⟩
    exact ⟨sync, checkpoint, align, conflict, timeout, history, prepare, catchup⟩

/-- A call that changes nothing and sends nothing has run no handler. -/
theorem Replica.Remembers.silent_of_absorbed (remembers : replica.Remembers msg)
    (absorbed : processMessage order replica msg = some (replica, [])) :
    ∀ stage ∈ (Input.message order msg).stages (S := S), stage.listen replica = none := by
  have split : (Input.message order msg).stages (S := S) =
      (normalStages msg ++ (voteStages order msg ++ [onReceiveRepairCommit msg])) ++
        [onReceiveRepairDone msg] := by
    simp [Input.stages, exitStages]
  have run : runStages perform ((Input.message order msg).stages (S := S)) replica =
      some (replica, []) := absorbed
  have stores : ∀ stage ∈ (Input.message order msg).stages (S := S),
      stage.store replica = replica := remembers.stores
  rw [split] at run stores ⊢
  rcases runStages_append_eq_some_iff.mp run with ⟨middle, first, others, front, last, joined⟩
  obtain ⟨rfl, rfl⟩ := List.append_eq_nil_iff.mp joined.symm
  have shows : ∀ stage ∈ normalStages msg ++ (voteStages order msg ++ [onReceiveRepairCommit msg]),
      ∀ cue next emitted, stage.listen replica = some cue →
        perform replica cue = some (next, emitted) → emitted ≠ [] := by
    intro stage stageMem cue next emitted listens performs
    have inStages : stage ∈ (Input.message order msg).stages (S := S) := by
      rw [split]
      exact List.mem_append_left _ stageMem
    apply effects_ne_nil_of_perform performs
    · rintro chkptIdx rfl
      rcases guard_of_listen inStages listens with ⟨_, other, isInput, guard⟩
      cases isInput
      rcases (canStateReply_eq_some_iff.mp guard).2 with ⟨_, _, rfl⟩
      exact remembers
    · rintro round rfl
      -- only the last block raises this cue
      simp only [normalStages, voteStages, List.cons_append, List.nil_append, List.mem_cons,
        List.not_mem_nil, or_false] at stageMem
      rcases stageMem with rfl | rfl | rfl | rfl | rfl | rfl | rfl | rfl | rfl | rfl | rfl | rfl |
        rfl <;>
      · rcases Option.map_eq_some_iff.mp listens with ⟨_, _, isCue⟩
        contradiction
  obtain ⟨unchanged, frontSilent⟩ := silent_of_no_effects
    (fun stage stageMem => stores stage (List.mem_append_left _ stageMem)) shows front
  rw [unchanged] at last
  have lastStores := stores (onReceiveRepairDone msg)
    (List.mem_append_right _ List.mem_cons_self)
  rcases runStages_cons_eq_some_iff.mp last with ⟨final, emitted, rest, head, tail, _⟩
  cases tail
  have lastSilent : (onReceiveRepairDone (S := S) msg).listen replica = none := by
    rcases Stage.run_cases head with ⟨silent, _, _⟩ | ⟨cue, listens, performs⟩
    · rw [lastStores] at silent
      exact silent
    · rcases Option.map_eq_some_iff.mp listens with ⟨_, _, rfl⟩
      rcases perform_repairDoneCatchup_eq_some performs with ⟨round, advanced, left, _⟩
      rw [lastStores] at advanced left
      have same : replica.round = round := congrArg (fun replica => replica.round) left
      exact absurd same (UInt64.ne_of_lt (lt_of_addU64_one advanced))
  intro stage stageMem
  rcases List.mem_append.mp stageMem with inFront | isLast
  · exact frontSilent stage inFront
  · rw [List.mem_singleton.mp isLast]
    exact lastSilent

end Redelivery

/-! ## Redelivery in a run -/

variable {config : Config} {nodeId : NodeId} {kvStore : S} {history : History S}

/-- No quorum of votes is ever left waiting: a call that delivers a message has used
it, and a timer fires only where there is none. -/
theorem votes_settled_of_localRun (run : LocalRun config nodeId kvStore history) :
    canRepairCommit history.replica = none ∧ canApplyRepair history.replica = none := by
  apply run.call_induction (P := fun history =>
    canRepairCommit history.replica = none ∧ canApplyRepair history.replica = none)
  · exact ⟨commit_silent (by simp [History.start, Replica.new]),
      apply_silent (by simp [History.start, Replica.new])⟩
  · intro earlier input post effects _ settled steps
    cases input with
    | message order msg =>
        have waiting : Waiting post := waiting_of_processMessage steps
        exact ⟨waiting.repairCommit, waiting.applyRepair⟩
    | event timer =>
        rw [step_eq_runStages] at steps
        refine runStages_preserves (P := fun replica : Replica S =>
          canRepairCommit replica = none ∧ canApplyRepair replica = none) ?_ settled steps
        constructor
        · intro stage stageMem replica holds
          rcases store_of_mem_stages stageMem replica with same | ⟨_, _, isMessage, _⟩
          · rw [same]
            exact holds
          · contradiction
        · intro stage stageMem replica cue next emitted holds _ listens performs
          have timed := isTimer_of_listen stageMem listens
          cases cue with
          | viewChange newView =>
              rcases guard_of_listen stageMem listens with ⟨_, _, guard⟩
              have collecting := (canViewChange_eq_some_iff.mp guard).1
              rcases perform_viewChange_eq_some performs with ⟨_, _, rfl, _⟩
              exact ⟨commit_silent (by simp [collecting]), apply_silent (by simp [collecting])⟩
          | sendSync logIdx | chkptTimeout logIdx =>
              cases performs
              exact holds
          | _ => contradiction

/-- In every reachable state a remembered message is absorbed exactly when no guard is
open. -/
theorem redelivery_absorbed_iff (run : LocalRun config nodeId kvStore history) {msg : Message}
    (remembers : history.replica.Remembers msg) (order : HashOrder) :
    processMessage order history.replica msg = some (history.replica, []) ↔
      Dormant order history.replica := by
  obtain ⟨noCommit, noApply⟩ := votes_settled_of_localRun run
  rw [← remembers.silent_iff noCommit noApply]
  constructor
  · exact remembers.silent_of_absorbed
  · intro silent
    exact runStages_of_silent fun stage stageMem =>
      ⟨remembers.stores stage stageMem, silent stage stageMem⟩

section Echo

attribute [local instance] plainHasher

/-- The message a replica has processed last. -/
def History.lastMessage (history : History S) : Option Message :=
  (history.calls.filterMap (·.input.delivered)).getLast?

/-- A replica of four appends an entry and hears its own SYNC. -/
def echoHistory : History MemKvStore :=
  (execute History.next (History.start (Config.forTest 4 1 0) "r1" MemKvStore.new)
    [.message .greatest (.speculate "seq" 0 Hash.zero 0),
      .message .greatest (.sync "r1" 0 0 Hash.zero 0)]).get (by decide +kernel)

theorem localRun_echoHistory :
    LocalRun (Config.forTest 4 1 0) "r1" MemKvStore.new echoHistory :=
  reachable_of_execute (Option.some_get _).symm

/-- Each echo of a SYNC makes the replica broadcast it again. -/
theorem redelivery_echoed :
    (processMessage .greatest echoHistory.replica (.sync "r1" 0 0 Hash.zero 0)).map Prod.snd =
        some [.broadcast (.sync "r1" 0 0 Hash.zero 0)] ∧
      ¬∀ history : History MemKvStore,
        LocalRun (Config.forTest 4 1 0) "r1" MemKvStore.new history →
        ∀ msg, history.replica.Remembers msg → history.lastMessage = some msg → ∀ order,
          processMessage order history.replica msg = some (history.replica, []) := by
  have echoed : (processMessage .greatest echoHistory.replica
      (.sync "r1" 0 0 Hash.zero 0)).map Prod.snd =
        some [.broadcast (.sync "r1" 0 0 Hash.zero 0)] := by
    decide +kernel
  constructor
  · exact echoed
  · intro absorbed
    have silent := absorbed echoHistory localRun_echoHistory (.sync "r1" 0 0 Hash.zero 0)
      (by decide +kernel) (by decide +kernel) .greatest
    rw [silent] at echoed
    contradiction

/-- After the commit vote a redelivered vote is absorbed. -/
theorem redelivery_absorbed_solo :
    processMessage .greatest soloHistory.replica (.repairPrepare "r0" 1 0 1) =
      some (soloHistory.replica, []) := by
  apply (redelivery_absorbed_iff localRun_soloHistory (by decide +kernel) .greatest).mpr
  constructor <;> decide +kernel

end Echo

end Raspen
