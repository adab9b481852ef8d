import Raspen.Consensus.Emission
import Raspen.Consensus.PastRounds
import Raspen.Consensus.Rounds

/-!
# Relaying a proof

A replica that enters REPAIR broadcasts one LOG, and should pass on the proof that made
it enter.  The two handlers that find the proof themselves do.  The one that follows a
proof of somebody else keeps it to itself, so such a proof goes no further unless the
replica would have entered without it.
-/

namespace Raspen

open Raspen.Transition

variable {S : Type}

/-- The three handlers that enter REPAIR. -/
def Cue.entersRepair : Cue → Bool
  | .conflictProof _ | .timeoutProof _ | .enterRepair _ => true
  | _ => false

variable [KvStoreOps S]

/-- The handler and the state on which a call entered REPAIR. -/
structure Call.Enters (call : Call S) (replica : Replica S) (cue : Cue) : Prop where
  fires : (replica, cue) ∈ call.cues
  outside : replica.inRepair = false
  inside : ∃ outcome ∈ perform replica cue, outcome.1.inRepair = true

omit [KvStoreOps S] in
/-- A call broadcasts one LOG for `view` and `round` and a proof for `round`. -/
structure Call.Relays (call : Call S) (view round : UInt64) : Prop where
  log : (call.effects.filterMap logSlot).count (view, round) = 1
  proof : ∃ logIdx, .broadcast (.timeoutProof round logIdx) ∈ call.effects ∨
    .broadcast (.conflictProof round logIdx) ∈ call.effects

/-! ## Entries of a call -/

/-- No other handler sets `in_repair`. -/
theorem entersRepair_of_perform {replica next : Replica S} {cue : Cue} {effects : List Effect}
    (performs : perform replica cue = some (next, effects)) (outside : replica.inRepair = false)
    (inside : next.inRepair = true) : cue.entersRepair = true := by
  cases cue with
  | conflictProof | timeoutProof | enterRepair => rfl
  | speculate logIdx =>
      rcases handleSpeculate_eq_some performs with ⟨_, _, _, _, _, _, rfl, _⟩
      simp [outside] at inside
  | stateReply chkptIdx =>
      rcases handleStateReply_eq_some performs with ⟨_, _, _, _, rfl, _⟩
      simp [outside] at inside
  | applyRepair historyHash =>
      rcases handleApplyRepair_eq_some performs with ⟨_, _, _, _, rfl, _⟩
      simp at inside
  | repairDoneCatchup round =>
      rcases perform_repairDoneCatchup_eq_some performs with ⟨_, _, rfl, _⟩
      simp at inside
  | viewChange newView =>
      rcases perform_viewChange_eq_some performs with ⟨view, _, rfl, _⟩
      simp [outside] at inside
  | _ =>
      cases performs
      simp [outside] at inside

/-- All three entries guard against being in REPAIR, and set `in_repair`. -/
theorem inRepair_of_entry {input : Input} {replica next : Replica S} {cue : Cue}
    {effects : List Effect} (entry : cue.entersRepair = true) (guard : Guard input replica cue)
    (performs : perform replica cue = some (next, effects)) :
    replica.inRepair = false ∧ next.inRepair = true := by
  cases cue with
  | conflictProof logIdx =>
      cases performs
      exact ⟨inRepair_of_canConflictProof guard, rfl⟩
  | timeoutProof logIdx =>
      cases performs
      exact ⟨inRepair_of_canTimeoutProof guard, rfl⟩
  | enterRepair round =>
      cases performs
      rcases guard with ⟨_, _, _, guard⟩
      exact ⟨inRepair_of_canEnterRepair guard, rfl⟩
  | _ => contradiction

/-- The entries so far: none, or one after which the replica is in REPAIR. -/
def EnteredOnce (replica : Replica S) (trace : List (Replica S × Cue)) : Prop :=
  trace.filter (·.2.entersRepair) = [] ∨
    (trace.filter (·.2.entersRepair)).length = 1 ∧ replica.inRepair = true

theorem EnteredOnce.of_perform {input : Input} {replica next : Replica S} {cue : Cue}
    {effects : List Effect} {trace : List (Replica S × Cue)} (entered : EnteredOnce replica trace)
    (stays : cue.isExit = false) (guard : Guard input replica cue)
    (performs : perform replica cue = some (next, effects)) :
    EnteredOnce next (trace ++ [(replica, cue)]) := by
  unfold EnteredOnce
  rw [List.filter_append]
  cases entry : cue.entersRepair with
  | true =>
      obtain ⟨outside, inside⟩ := inRepair_of_entry entry guard performs
      rcases entered with none | ⟨_, already⟩
      · right
        simp [none, entry, inside]
      · rw [outside] at already
        contradiction
  | false =>
      rcases entered with none | ⟨one, already⟩
      · left
        simp [none, entry]
      · right
        simp [one, entry, (round_of_perform stays performs).2 already]

theorem Cue.isExit_of_isNormal {cue : Cue} (isNormal : cue.isNormal = true) :
    cue.isExit = false := by
  cases cue <;> simp_all [Cue.isNormal, Cue.isExit]

/-- The blocks before the REPAIR agreement enter REPAIR at most once. -/
theorem enteredOnce_of_normal {msg : Message} {replica middle : Replica S} {effects : List Effect}
    (run : runStages perform (normalStages msg) replica = some (middle, effects)) :
    EnteredOnce middle (fired perform (normalStages msg) replica) := by
  have sub : normalStages msg ⊆ (Input.message .greatest msg).stages (S := S) :=
    List.subset_append_left _ _
  refine @Transition.fired_invariant _ _ _ perform _ _ _ _ EnteredOnce (fun _ _ => True) []
    ?_ ?_ (fun _ _ => trivial) (.inl rfl) run
  · intro stage state trace stageMem entered
    rcases store_of_mem_stages (sub stageMem) state with same | ⟨_, other, _, stored⟩
    · rw [same]
      exact entered
    · rw [stored]
      unfold EnteredOnce
      rw [(QuietStep.store state other).inRepair]
      exact entered
  · intro stage state cue next emitted trace stageMem entered _ listens performs
    have stays := Cue.isExit_of_isNormal (isNormal_of_listen stageMem listens)
    exact entered.of_perform stays (guard_of_listen (sub stageMem) listens) performs

/-- Before the REPAIR agreement a replica that is in REPAIR stays inside. -/
theorem inRepair_of_fired {msg : Message} {stages : List (ReplicaStage S)}
    (sub : stages ⊆ normalStages msg) {replica final : Replica S} {effects : List Effect}
    (inside : replica.inRepair = true)
    (run : runStages perform stages replica = some (final, effects)) :
    ∀ firing ∈ fired perform stages replica, firing.1.inRepair = true := by
  have preserves : Preserves perform (Input.message .greatest msg).stages
      (fun _ cue => cue.isExit = false) fun state : Replica S => state.inRepair = true := by
    apply preserves_stages
    · intro state delivered _ inside
      rw [Replica.store_inRepair]
      exact inside
    · intro state cue next emitted inside stays _ performs
      exact (round_of_perform stays performs).2 inside
  have stays : ∀ firing ∈ fired perform stages replica, firing.2.isExit = false := by
    intro firing fires
    rcases exists_stage_of_mem_fired fires with ⟨stage, stageMem, listens⟩
    exact Cue.isExit_of_isNormal (isNormal_of_listen (sub stageMem) listens)
  have sub' : stages ⊆ (Input.message .greatest msg).stages :=
    List.Subset.trans sub (List.subset_append_left _ _)
  exact ((preserves.mono sub').of_runStages inside stays run).2

/-- The blocks of the REPAIR agreement enter REPAIR no more. -/
theorem not_entersRepair_of_agreement {order : HashOrder} {msg : Message} {replica : Replica S}
    {firing : Replica S × Cue}
    (fires : firing ∈ fired perform (voteStages order msg ++ exitStages msg) replica) :
    firing.2.entersRepair = false := by
  rcases exists_stage_of_mem_fired fires with ⟨stage, stageMem, listens⟩
  rcases List.mem_append.mp stageMem with vote | exit
  · have isVote := isVote_of_listen vote listens
    cases cue : firing.2 <;> simp_all [Cue.isVote, Cue.entersRepair]
  · have isExit := isExit_of_listen exit listens
    cases cue : firing.2 <;> simp_all [Cue.isExit, Cue.entersRepair]

/-- So an entry is an entry of the blocks before. -/
theorem mem_normal_of_enters {order : HashOrder} {msg : Message} {replica middle : Replica S}
    {effects : List Effect} {stages : List (ReplicaStage S)}
    (run : runStages perform stages replica = some (middle, effects))
    {firing : Replica S × Cue}
    (fires : firing ∈ fired perform (stages ++ (voteStages order msg ++ exitStages msg)) replica)
    (enters : firing.2.entersRepair = true) : firing ∈ fired perform stages replica := by
  rw [fired_append run] at fires
  rcases List.mem_append.mp fires with early | late
  · exact early
  · rw [not_entersRepair_of_agreement late] at enters
    contradiction

/-- No timer enters REPAIR. -/
theorem exists_message_of_enters {call : Call S} {firing : Replica S × Cue}
    (fires : firing ∈ call.cues) (enters : firing.2.entersRepair = true) :
    ∃ order msg, call.input = .message order msg := by
  obtain ⟨input, pre, post, effects⟩ := call
  cases input with
  | message order msg => exact ⟨order, msg, rfl⟩
  | event timer =>
      rcases exists_stage_of_mem_fired fires with ⟨stage, stageMem, listens⟩
      have isTimer := isTimer_of_listen stageMem listens
      cases cue : firing.2 <;> simp_all [Cue.isTimer, Cue.entersRepair]

/-- A call enters REPAIR at most once. -/
theorem entry_unique {call : Call S}
    (steps : step call.pre call.input = some (call.post, call.effects))
    {first second : Replica S × Cue} (firstFires : first ∈ call.cues)
    (secondFires : second ∈ call.cues) (firstEnters : first.2.entersRepair = true)
    (secondEnters : second.2.entersRepair = true) : first = second := by
  rcases exists_message_of_enters firstFires firstEnters with ⟨order, msg, isInput⟩
  rw [isInput] at steps
  rw [Call.cues, isInput] at firstFires secondFires
  rcases runStages_append_eq_some_iff.mp steps with ⟨middle, _, _, normal, _, _⟩
  have firstMem := mem_normal_of_enters normal firstFires firstEnters
  have secondMem := mem_normal_of_enters normal secondFires secondEnters
  rcases enteredOnce_of_normal normal with none | ⟨one, _⟩
  · have absent := List.filter_eq_nil_iff.mp none first firstMem
    exact absurd firstEnters absent
  · exact eq_of_only one firstMem secondMem firstEnters secondEnters

/-! ## What an entry broadcasts -/

/-- Every entry broadcasts a LOG for its view and round. -/
theorem log_of_entry {replica next : Replica S} {cue : Cue} {effects : List Effect}
    (entry : cue.entersRepair = true) (performs : perform replica cue = some (next, effects)) :
    logMsgEffect replica replica.view ∈ effects := by
  cases cue with
  | conflictProof | timeoutProof | enterRepair =>
      cases performs
      simp
  | _ => contradiction

/-- A handler that broadcasts a proof enters REPAIR, and has found the proof itself. -/
theorem entry_of_proof {cue : Cue} {msg : Message} (emits : cue.emits msg = true)
    (isProof : msg.isProof = true) :
    cue.entersRepair = true ∧ ∀ round, cue ≠ .enterRepair round := by
  cases msg with
  | timeoutProof | conflictProof => cases cue <;> simp_all [Cue.emits, Cue.entersRepair]
  | _ => contradiction

variable {config : Config} {nodeId : NodeId} {kvStore : S} {history : History S}

omit [KvStoreOps S] in
theorem count_log_le (once : OnceOnly logSlot history.effects) {call : Call S}
    (callMem : call ∈ history.calls) (slot : UInt64 × UInt64) :
    (call.effects.filterMap logSlot).count slot ≤ 1 := by
  have sub : call.effects.Sublist history.effects :=
    List.sublist_flatten_of_mem (List.mem_map_of_mem callMem)
  exact List.nodup_iff_count_le_one.mp (once.sublist (sub.filterMap logSlot)) slot

/-- A call that enters REPAIR relays a proof exactly when it has found the proof itself. -/
theorem relays_iff_own (run : LocalRun config nodeId kvStore history) {call : Call S}
    (callMem : call ∈ history.calls) {replica : Replica S} {cue : Cue}
    (entry : call.Enters replica cue) :
    call.Relays replica.view replica.round ↔ ∀ round, cue ≠ .enterRepair round := by
  have steps := run.step_of_mem_calls callMem
  have runs := steps
  rw [step_eq_runStages] at runs
  rcases performs_of_fired runs entry.fires with ⟨next, effects, performs, emits⟩
  rcases entry.inside with ⟨outcome, isOutcome, inside⟩
  have enters := entersRepair_of_perform isOutcome entry.outside inside
  constructor
  · rintro ⟨_, logIdx, proofMem⟩ round rfl
    have emitted : ∃ effect ∈ call.effects, effect.message.isProof = true := by
      rcases proofMem with timeout | conflict
      · exact ⟨_, timeout, rfl⟩
      · exact ⟨_, conflict, rfl⟩
    rcases emitted with ⟨effect, effectMem, isProof⟩
    rcases exists_firing_of_mem_effects runs effectMem with
      ⟨other, otherFires, _, _, otherPerforms, emission⟩
    obtain ⟨otherEnters, own⟩ := entry_of_proof (emits_of_perform otherPerforms _ emission) isProof
    have same := entry_unique steps entry.fires otherFires rfl otherEnters
    exact own round (congrArg Prod.snd same).symm
  · intro own
    constructor
    · have logMem := emits _ (log_of_entry enters performs)
      have slotMem : (replica.view, replica.round) ∈ call.effects.filterMap logSlot :=
        List.mem_filterMap.mpr ⟨_, logMem, rfl⟩
      have atMost := count_log_le (repair_broadcasts_once run).log callMem
        (replica.view, replica.round)
      have atLeast := List.count_pos_iff.mpr slotMem
      omega
    · cases cue with
      | conflictProof logIdx =>
          cases performs
          exact ⟨logIdx, .inr (emits _ List.mem_cons_self)⟩
      | timeoutProof logIdx =>
          cases performs
          exact ⟨logIdx, .inl (emits _ List.mem_cons_self)⟩
      | enterRepair round => exact absurd rfl (own round)
      | _ => contradiction

/-! ## Own evidence -/

omit [KvStoreOps S] in
theorem isProof_of_canEnterRepair {replica : Replica S} {msg : Message} {round : UInt64}
    (guard : canEnterRepair replica msg = some round) : msg.isProof = true := by
  cases msg <;> simp_all [canEnterRepair, Message.isProof]

section Proof

variable {order : HashOrder} {msg : Message} {replica middle : Replica S} {effects : List Effect}

/-- The cues of a call on a proof, with the state in which it is followed. -/
theorem fired_of_isProof (isProof : msg.isProof = true)
    (front : runStages perform frontStages replica = some (middle, effects)) :
    fired perform (Input.message order msg).stages replica =
      fired perform frontStages replica ++ fired perform (followStages order msg) middle := by
  have split : (Input.message order msg).stages (S := S) =
      frontStages ++ followStages order msg := by
    cases msg <;> first | contradiction | rfl
  rw [split, fired_append front]

/-- Outside REPAIR a proof is followed. -/
theorem follows_of_outside (isProof : msg.isProof = true) (outside : middle.inRepair = false) :
    (middle, .enterRepair middle.round) ∈ fired perform (followStages order msg) middle := by
  cases msg <;> first
    | contradiction
    | simp [followStages, normalStages, fired, Stage.guard, canEnterRepair, outside]

/-- Inside REPAIR it is not. -/
theorem not_follows_of_inside (inside : middle.inRepair = true) {post : Replica S}
    (run : runStages perform (followStages order msg) middle = some (post, effects))
    (state : Replica S) (round : UInt64) :
    (state, .enterRepair round) ∉ fired perform (followStages order msg) middle := by
  intro fires
  rcases runStages_append_eq_some_iff.mp run with ⟨voting, _, _, normal, _, _⟩
  have early := mem_normal_of_enters normal fires rfl
  have stays := inRepair_of_fired (List.drop_subset 6 _) inside normal _ early
  have sub : (normalStages msg).drop 6 ⊆ (Input.message order msg).stages (S := S) :=
    List.Subset.trans (List.drop_subset 6 _) (List.subset_append_left _ _)
  rcases exists_stage_of_mem_fired early with ⟨stage, stageMem, listens⟩
  rcases guard_of_listen (sub stageMem) listens with ⟨_, _, _, guard⟩
  rw [inRepair_of_canEnterRepair guard] at stays
  contradiction

/-- No block before it follows a proof. -/
theorem not_follows_of_front (state : Replica S) (round : UInt64) :
    (state, .enterRepair round) ∉ fired perform frontStages replica := by
  intro fires
  rcases exists_stage_of_mem_fired fires with ⟨stage, stageMem, listens⟩
  simp only [frontStages, checkpointStages, evidenceStages, List.cons_append, List.nil_append,
    List.mem_cons, List.not_mem_nil, or_false] at stageMem
  rcases stageMem with rfl | rfl | rfl | rfl | rfl | rfl <;> simp [Stage.guard] at listens

end Proof

/-- A call that enters REPAIR starts outside. -/
theorem outside_of_enters {call : Call S}
    (steps : step call.pre call.input = some (call.post, call.effects))
    {replica : Replica S} {cue : Cue} (fires : (replica, cue) ∈ call.cues)
    (enters : cue.entersRepair = true) (outside : replica.inRepair = false) :
    call.pre.inRepair = false := by
  rcases exists_message_of_enters fires enters with ⟨order, msg, isInput⟩
  rw [isInput] at steps
  rw [Call.cues, isInput] at fires
  rcases runStages_append_eq_some_iff.mp steps with ⟨middle, _, _, normal, _, _⟩
  by_contra already
  have stays := inRepair_of_fired (List.Subset.refl _) (Bool.eq_true_of_not_eq_false already)
    normal _ (mem_normal_of_enters normal fires enters)
  rw [outside] at stays
  contradiction

/-- The entry is on the replica's own evidence exactly where the call delivers no proof, or
where the replica enters without the proof. -/
theorem own_iff {call : Call S}
    (steps : step call.pre call.input = some (call.post, call.effects))
    {replica : Replica S} {cue : Cue} (fires : (replica, cue) ∈ call.cues)
    (enters : cue.entersRepair = true) (outside : replica.inRepair = false) :
    (∀ round, cue ≠ .enterRepair round) ↔
      (∀ msg ∈ call.input.delivered, msg.isProof = false) ∨ EntersAnyway call.pre := by
  rcases exists_message_of_enters fires enters with ⟨order, msg, isInput⟩
  rcases exists_front call.pre with ⟨middle, others, front, facts⟩
  have middle_iff : middle.inRepair = true ↔ EntersAnyway call.pre := by
    rw [facts.inRepair_iff, outside_of_enters steps fires enters outside]
    simp
  constructor
  · intro own
    by_contra neither
    obtain ⟨proof, alone⟩ := not_or.mp neither
    have isProof : msg.isProof = true := by
      simpa [isInput, Input.delivered] using proof
    have stays : middle.inRepair = false :=
      Bool.eq_false_of_not_eq_true fun inside => alone (middle_iff.mp inside)
    have followed : (middle, .enterRepair middle.round) ∈ call.cues := by
      rw [Call.cues, isInput, fired_of_isProof isProof front]
      exact List.mem_append_right _ (follows_of_outside isProof stays)
    have same := entry_unique steps fires followed enters rfl
    exact own middle.round (congrArg Prod.snd same)
  · rintro condition round rfl
    rcases Call.guard_of_mem_cues fires with ⟨order', msg', isInput', guard⟩
    have isProof := isProof_of_canEnterRepair guard
    rcases condition with noProof | anyway
    · rw [noProof msg' (by rw [isInput']; rfl)] at isProof
      contradiction
    · rw [Call.cues, isInput', fired_of_isProof isProof front] at fires
      have runs : runStages perform (frontStages ++ followStages order' msg') call.pre =
          some (call.post, call.effects) := by
        rw [← processMessage_of_isProof isProof]
        rw [isInput'] at steps
        exact steps
      rw [runStages_append, front, Option.bind_some] at runs
      rcases Option.map_eq_some_iff.mp runs with ⟨⟨post, emitted⟩, follows, _⟩
      rcases List.mem_append.mp fires with early | late
      · exact not_follows_of_front replica round early
      · exact not_follows_of_inside (middle_iff.mpr anyway) follows replica round late

/-- A call that enters REPAIR relays a proof exactly when it delivers none, or when the
replica would have entered without the one it delivers. -/
theorem relays_iff (run : LocalRun config nodeId kvStore history) {call : Call S}
    (callMem : call ∈ history.calls) {replica : Replica S} {cue : Cue}
    (entry : call.Enters replica cue) :
    call.Relays replica.view replica.round ↔
      (∀ msg ∈ call.input.delivered, msg.isProof = false) ∨ EntersAnyway call.pre := by
  have steps := run.step_of_mem_calls callMem
  rcases entry.inside with ⟨outcome, performs, inside⟩
  have enters := entersRepair_of_perform performs entry.outside inside
  exact (relays_iff_own run callMem entry).trans 
    (own_iff steps entry.fires enters entry.outside)

/-! ## A proof that goes no further -/

section Follower

attribute [local instance] plainHasher

/-- A replica receives somebody else's proof. -/
def followerHistory : History MemKvStore :=
  (execute History.next (History.start (Config.forTest 4 1 0) "r1" MemKvStore.new)
    [.message .greatest (.conflictProof 0 0)]).get (by decide +kernel)

theorem localRun_followerHistory :
    LocalRun (Config.forTest 4 1 0) "r1" MemKvStore.new followerHistory :=
  reachable_of_execute (Option.some_get _).symm

/-- It enters REPAIR and broadcasts no proof. -/
theorem exists_entry_followerHistory :
    ∃ call ∈ followerHistory.calls, (∀ effect ∈ call.effects, effect.message.isProof = false) ∧
      ∃ firing ∈ call.cues, firing.1.inRepair = false ∧
        ∃ outcome ∈ perform firing.1 firing.2, outcome.1.inRepair = true := by
  decide +kernel

theorem proof_not_relayed :
    ¬∀ (config : Config) (nodeId : NodeId) (history : History MemKvStore),
      LocalRun config nodeId MemKvStore.new history → ∀ call ∈ history.calls,
        ∀ replica cue, call.Enters replica cue → call.Relays replica.view replica.round := by
  intro relays
  rcases exists_entry_followerHistory with
    ⟨call, callMem, noProof, ⟨replica, cue⟩, fires, outside, inside⟩
  have entry : call.Enters replica cue := ⟨fires, outside, inside⟩
  obtain ⟨_, logIdx, timeout | conflict⟩ :=
    relays _ _ _ localRun_followerHistory call callMem replica cue entry
  · exact absurd (noProof _ timeout) (by simp [Effect.message, Message.isProof])
  · exact absurd (noProof _ conflict) (by simp [Effect.message, Message.isProof])

theorem relays_iff_follower :
    ∃ call ∈ followerHistory.calls, ∃ firing ∈ call.cues, call.Enters firing.1 firing.2 ∧
      (call.Relays firing.1.view firing.1.round ↔
        (∀ msg ∈ call.input.delivered, msg.isProof = false) ∨ EntersAnyway call.pre) := by
  rcases exists_entry_followerHistory with
    ⟨call, callMem, _, firing, fires, outside, inside⟩
  have entry : call.Enters firing.1 firing.2 := ⟨fires, outside, inside⟩
  exact ⟨call, callMem, firing, fires, entry,
    relays_iff localRun_followerHistory callMem entry⟩

end Follower

end Raspen
